/-
# Paths

A path is kept as it is spelled, because messages and snapshots show the spelling; what it names
are its components. Repeated slashes and dots inside a path, and slashes at its end, name
nothing, so several spellings have the same components.

Key definitions: `Path`, `Path.components`, `Path.join`, `Path.relativeTo`, `Path.fileName?`,
`Path.stem`, `Path.extension?`.
-/

namespace AbiGate

/-- A path as it is spelled. -/
structure Path where
  text : String
  deriving DecidableEq, Repr, Inhabited

namespace Path

instance : ToString Path := ⟨text⟩

/-- A step of a path: the top of the file system, the directory one stands in (kept only at the
start of a path), the directory above, or an entry. -/
inductive Component where
  | top
  | here
  | above
  | entry (name : String)
  deriving DecidableEq, Repr

/-- The pieces of a text between its slashes. -/
def cutAtSlashes : List Char → List (List Char)
  | [] => [[]]
  | '/' :: rest => [] :: cutAtSlashes rest
  | c :: rest =>
    match cutAtSlashes rest with
    | [] => [[c]]
    | piece :: more => (c :: piece) :: more

/-- The pieces of the path between its slashes; empty ones and dots included. -/
def pieces (p : Path) : List String :=
  (cutAtSlashes p.text.toList).map String.ofList

/-- What a piece behind the start of a path names. -/
def componentOf? (piece : String) : Option Component :=
  if piece = "" ∨ piece = "." then none
  else if piece = ".." then some .above
  else some (.entry piece)

/-- The components that pieces behind the start of a path name. -/
def innerComponents (pieces : List String) : List Component :=
  pieces.filterMap componentOf?

/-- The components of a path. -/
def components (p : Path) : List Component :=
  match p.pieces with
  | [""] => []
  | "" :: rest => .top :: innerComponents rest
  | "." :: rest => .here :: innerComponents rest
  | rest => innerComponents rest

/-- Two paths are the same if their components are. -/
def same (p q : Path) : Bool :=
  p.components = q.components

/-- Whether the path starts at the top of the file system. -/
def isAbsolute (p : Path) : Bool :=
  p.text.toList.head? = some '/'

/-- The second path as seen from the directory that the first one names. -/
def join (p q : Path) : Path :=
  if q.isAbsolute then q
  else if p.text.isEmpty ∨ p.text.toList.getLast? = some '/' then ⟨p.text ++ q.text⟩
  else ⟨p.text ++ "/" ++ q.text⟩

/-- An entry of the directory that the path names. -/
def child (p : Path) (name : String) : Path :=
  p.join ⟨name⟩

/-- The pieces that are left behind a number of components. -/
def dropComponents : Nat → List String → List String
  | 0, pieces => pieces
  | _ + 1, [] => []
  | n + 1, piece :: rest =>
    if (componentOf? piece).isSome then dropComponents n rest else dropComponents (n + 1) rest

/-- The path that leads from a directory to this path, if the directory's components are the
first ones of it. The pieces between keep their spelling. -/
def relativeTo? (p base : Path) : Option Path :=
  let n := base.components.length
  if p.components.take n = base.components then
    if n = 0 then some p
    else
      let behind :=
        match p.components with
        | .top :: _ => dropComponents (n - 1) (p.pieces.drop 1)
        | .here :: _ => dropComponents (n - 1) (p.pieces.drop 1)
        | _ => dropComponents n p.pieces
      let named := fun piece => (componentOf? piece).isSome
      let trimmed := ((behind.dropWhile (!named ·)).reverse.dropWhile (!named ·)).reverse
      some ⟨"/".intercalate trimmed⟩
  else none

/-- The path as seen from a directory, or the path itself if it is not below the directory. -/
def relativeTo (p base : Path) : Path :=
  (p.relativeTo? base).getD p

/-- The last component, if it is an entry. -/
def fileName? (p : Path) : Option String :=
  match p.components.getLast? with
  | some (.entry name) => some name
  | _ => none

/-- A name cut at its last dot; a dot that starts the name does not count. -/
def cutAtLastDot (name : String) : String × Option String :=
  let behind := (name.toList.reverse.takeWhile (· ≠ '.')).reverse
  let before := name.toList.take (name.toList.length - behind.length - 1)
  if before.isEmpty ∨ ¬ name.toList.contains '.' then (name, none)
  else (String.ofList before, some (String.ofList behind))

/-- The last entry's name without its extension; empty if the path ends with no entry. -/
def stem (p : Path) : String :=
  match p.fileName? with
  | some name => (cutAtLastDot name).1
  | none => ""

/-- The part of the last entry's name behind its last dot. -/
def extension? (p : Path) : Option String :=
  p.fileName?.bind fun name => (cutAtLastDot name).2

end Path

end AbiGate
