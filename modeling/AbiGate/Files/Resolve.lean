/-
# From paths to entries

A path is followed piece by piece from the directory it starts in. A link is replaced by what it
points to; after forty links the way is given up. Every piece needs a directory to stand in, also
an empty one, so that a slash behind the name of a file leads nowhere.

A tree has no permissions, so following a path never ends with `FileFault.notPermitted`.

Key definitions: `FileTree.resolve`, `FileTree.isFile`, `FileTree.list`, `FileTree.read`,
`FileTree.readText`, `FileTree.write`, `FileTree.writeAll`.
-/
import AbiGate.Files.Tree

namespace AbiGate

/-- Why a file cannot be read. -/
inductive FileFault where
  | notFound
  | notPermitted
  | notADirectory
  | isADirectory
  | nameTooLong
  | tooManyLinks
  /-- A path with a zero character names nothing. -/
  | zeroInName
  | notText
  deriving DecidableEq, Repr

def FileFault.message : FileFault → String
  | notFound => "No such file or directory (os error 2)"
  | notPermitted => "Permission denied (os error 13)"
  | notADirectory => "Not a directory (os error 20)"
  | isADirectory => "Is a directory (os error 21)"
  | nameTooLong => "File name too long (os error 36)"
  | tooManyLinks => "Too many levels of symbolic links (os error 40)"
  | zeroInName => "file name contained an unexpected NUL byte"
  | notText => "stream did not contain valid UTF-8"

/-- A value, unless there is a fault. -/
def FileFault.guard {α : Type} : Option FileFault → α → Except FileFault α
  | none, a => .ok a
  | some fault, _ => .error fault

namespace FileTree

/-- The number of octets that a name may have. -/
def maxName : Nat := 255

/-- The number of octets that a path may have. -/
def maxPath : Nat := 4095

/-- The number of links that are followed on the way of one path. -/
def maxLinks : Nat := 40

/-- Where following the pieces of a path stops. -/
inductive Stop where
  | reached (l : Location)
  /-- At a link in a directory, with the pieces that are left behind it. -/
  | link (directory : Location) (target : Path) (rest : List String)
  deriving DecidableEq, Repr

/-- Follows pieces of a path from a location up to the first link. -/
def walk (t : FileTree) :
    (start : Location) → (pieces : List String) → Except FileFault Stop
  | start, [] => .ok (.reached start)
  | start, piece :: rest =>
    if !t.isDirectory start then .error .notADirectory
    else if piece = "" ∨ piece = "." then t.walk start rest
    else if piece = ".." then t.walk start.dropLast rest
    else if piece.utf8ByteSize > maxName then .error .nameTooLong
    else
      match t.entry? (start ++ [piece]) with
      | none => .error .notFound
      | some (.link target) => .ok (.link start target rest)
      | some _ => t.walk (start ++ [piece]) rest

/-- The directory that the target of a link in a directory starts in. -/
def startOfTarget (directory : Location) (target : Path) : Location :=
  if target.isAbsolute then [] else directory

/-- Follows pieces of a path from a location, through a number of links at most. -/
def follow (t : FileTree) (links : Nat) (start : Location) (pieces : List String) :
    Except FileFault Location :=
  match t.walk start pieces, links with
  | .error e, _ => .error e
  | .ok (.reached l), _ => .ok l
  | .ok (.link ..), 0 => .error .tooManyLinks
  | .ok (.link directory target rest), links + 1 =>
    t.follow links (startOfTarget directory target) (target.pieces ++ rest)

/-- Why a path leads nowhere in any tree, if it does not. -/
def pathFault? (p : Path) : Option FileFault :=
  if p.text.toList.contains '\x00' then some .zeroInName
  else if p.text.isEmpty then some .notFound
  else if p.text.utf8ByteSize > maxPath then some .nameTooLong
  else none

/-- The location that a path names for one who stands in a directory. -/
def resolve (t : FileTree) (here : Location) (p : Path) : Except FileFault Location :=
  match pathFault? p with
  | some fault => .error fault
  | none => t.follow maxLinks (startOfTarget here p) p.pieces

/-- Whether a path leads to a file. -/
def isFile (t : FileTree) (here : Location) (p : Path) : Bool :=
  match t.resolve here p with
  | .ok l => (t.entry? l).any Entry.isFile
  | .error _ => false

/-- The location of the directory that a path leads to. -/
def resolveDirectory (t : FileTree) (here : Location) (p : Path) : Except FileFault Location :=
  match t.resolve here p with
  | .ok l => if t.isDirectory l then .ok l else .error .notADirectory
  | .error e => .error e

theorem resolveDirectory_eq_ok_iff {t : FileTree} {here l : Location} {p : Path} :
    t.resolveDirectory here p = .ok l ↔ t.resolve here p = .ok l ∧ t.isDirectory l = true := by
  unfold resolveDirectory
  cases t.resolve here p with
  | error e => simp
  | ok found =>
    by_cases hfound : t.isDirectory found = true
    · simp only [hfound, if_true, Except.ok.injEq]
      exact ⟨fun h => ⟨h, h ▸ hfound⟩, And.left⟩
    · simp only [hfound, Bool.false_eq_true, if_false, reduceCtorEq, false_iff, Except.ok.injEq]
      exact fun h => hfound (h.1 ▸ h.2)

/-- The entries of the directory that a path leads to, by name. -/
def list (t : FileTree) (here : Location) (p : Path) : Except FileFault (List (String × Entry)) :=
  (t.resolveDirectory here p).map t.children

/-- The content of the file that a path leads to. -/
def read (t : FileTree) (here : Location) (p : Path) : Except FileFault Text.Octets :=
  match t.resolve here p with
  | .error e => .error e
  | .ok l =>
    match t.entry? l with
    | some (.file content) => .ok content
    | some .directory => .error .isADirectory
    | _ => .error .notFound

/-- The content of a file as a text. -/
def textOf (content : Text.Octets) : Except FileFault String :=
  match Text.Utf8.decode? content with
  | some s => .ok s
  | none => .error .notText

/-- The text in the file that a path leads to. -/
def readText (t : FileTree) (here : Location) (p : Path) : Except FileFault String :=
  match t.read here p with
  | .ok content => textOf content
  | .error e => .error e

/-- Makes the directories on the way that pieces of a path lead from a location, and says where it
ends. -/
def makeWay (t : FileTree) : (start : Location) → (pieces : List String) →
    Except FileFault (FileTree × Location)
  | start, [] => .ok (t, start)
  | start, piece :: rest =>
    if piece = "" ∨ piece = "." then t.makeWay start rest
    else if piece = ".." then t.makeWay start.dropLast rest
    else if piece.utf8ByteSize > maxName then .error .nameTooLong
    else
      match t.entry? (start ++ [piece]) with
      | none => (t.set (start ++ [piece]) .directory).makeWay (start ++ [piece]) rest
      | some .directory => t.makeWay (start ++ [piece]) rest
      | some (.file _) => .error .notADirectory
      | some (.link _) =>
        match t.follow maxLinks start [piece] with
        | .error e => .error e
        | .ok l => if t.isDirectory l then t.makeWay l rest else .error .notADirectory

/-- Whether a piece of a path can be the name of an entry. -/
def isName (piece : String) : Bool :=
  piece ≠ "" && piece ≠ "." && piece ≠ ".." && piece.utf8ByteSize ≤ maxName

/-- The tree with a file of a name in a directory. Through a link, the file is made where the link
points. -/
def writeFile (t : FileTree) (content : Text.Octets) (links : Nat) (directory : Location)
    (name : String) : Except FileFault FileTree :=
  if !isName name then .error .isADirectory
  else
    match t.entry? (directory ++ [name]), links with
    | some .directory, _ => .error .isADirectory
    | some (.link _), 0 => .error .tooManyLinks
    | some (.link target), links + 1 =>
      let pieces := target.pieces
      match t.follow links (startOfTarget directory target) pieces.dropLast with
      | .error e => .error e
      | .ok l =>
        if t.isDirectory l then t.writeFile content links l (pieces.getLast?.getD "")
        else .error .notADirectory
    | _, _ => .ok (t.set (directory ++ [name]) (.file content))

/-- The tree with an entry of a name in a directory. -/
def writeEntry (t : FileTree) (directory : Location) (name : String) :
    Entry → Except FileFault FileTree
  | .file content => t.writeFile content maxLinks directory name
  | e =>
    if isName name ∧ (t.entry? (directory ++ [name])).isNone then
      .ok (t.set (directory ++ [name]) e)
    else .error .isADirectory

/-- The tree with an entry at the place that a path names, and directories on the way to it. -/
def tryWrite (t : FileTree) (here : Location) (p : Path) (e : Entry) : Except FileFault FileTree :=
  let start := startOfTarget here p
  match e with
  | .directory => (t.makeWay start p.pieces).map (·.1)
  | e =>
    match t.makeWay start p.pieces.dropLast with
    | .error fault => .error fault
    | .ok (t, directory) => t.writeEntry directory (p.pieces.getLast?.getD "") e

/-- The tree with an entry at the place that a path names. What cannot be made is left out. -/
def write (t : FileTree) (here : Location) (p : Path) (e : Entry) : FileTree :=
  (t.tryWrite here p e).toOption.getD t

/-- The tree with a directory in which entries are made in turn where their paths say. -/
def writeAll (t : FileTree) (here : Location) (entries : List (Path × Entry)) : FileTree :=
  entries.foldl (fun t e => t.write here e.1 e.2) (t.put here .directory)

end FileTree

end AbiGate
