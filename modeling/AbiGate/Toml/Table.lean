/-
# Tables under construction

The tables of a TOML document can be added to from several places, and where a table comes from
decides what may still be added: a table with a header of its own, or of an array, is complete
with its section; a table that a longer header implied may get a header once; a table that dotted
keys made can be added to by dotted keys only. Values can never be added to.

Key definitions: `Toml.Node`, `Toml.descend?`, `Toml.addPair?`, `Toml.openTable?`,
`Toml.openArrayTable?`, `Toml.Node.value`.
-/
import AbiGate.Toml.Basic

namespace AbiGate.Toml

/-- Where a table comes from. -/
inductive Origin where
  /-- A header, the start of the document, or the brace of a table in a line. -/
  | header
  /-- The header of a table below it. -/
  | implied
  /-- A dotted key. -/
  | dotted
  deriving DecidableEq, Repr

/-- What is under a key of a table. -/
inductive Node where
  | value (v : Toml)
  | table (origin : Origin) (entries : List (String × Node))
  /-- An array of tables, of which only the last one can be added to. -/
  | tables (last : List (String × Node)) (before : List (List (String × Node)))
  deriving Repr

/-- The entries of a table, in the order in which they came. -/
abbrev Entries := List (String × Node)

/-- What is under a key. -/
def nodeAt? (key : String) (entries : Entries) : Option Node :=
  (entries.find? (·.1 = key)).map (·.2)

/-- The entries with another node under a key. -/
def setNode (key : String) (node : Node) : Entries → Entries
  | [] => [(key, node)]
  | (k, n) :: rest => if k = key then (key, node) :: rest else (k, n) :: setNode key node rest

/-- Changes the table at the end of a path, making tables that are missing on the way. Dotted keys
do not lead through a table that has a header. The change is told where the table comes from. -/
def descend? (making : Origin) (change : Origin → Entries → Option Entries) :
    (path : List String) → Origin → Entries → Option Entries
  | [], origin, entries => change origin entries
  | key :: path, _, entries =>
    match nodeAt? key entries with
    | none => do
      let inner ← descend? making change path making []
      return setNode key (.table making inner) entries
    | some (.value _) => none
    | some (.tables last before) => do
      let inner ← descend? making change path .header last
      return setNode key (.tables inner before) entries
    | some (.table origin inner) =>
      if making = .dotted ∧ origin = .header then none
      else do
        let inner ← descend? making change path origin inner
        return setNode key (.table origin inner) entries

/-- A path cut before its last key. -/
def cutLast? (path : List String) : Option (List String × String) :=
  path.getLast?.map fun key => (path.dropLast, key)

/-- A new node under a key that is free. -/
def addNew? (key : String) (node : Node) (entries : Entries) : Option Entries :=
  match nodeAt? key entries with
  | some _ => none
  | none => some (entries ++ [(key, node)])

/-- Adds a value to a table under a dotted key. What keys without dots make and what dotted keys
make is kept apart. -/
def addPair? (path : List String) (v : Toml) (entries : Entries) : Option Entries := do
  let (tables, key) ← cutLast? path
  let add := fun origin inner =>
    if tables.isEmpty ∨ origin = .dotted then addNew? key (.value v) inner else none
  descend? .dotted add tables .header entries

/-- Gives a table its header. -/
def openTable? (path : List String) (root : Entries) : Option Entries := do
  let (above, key) ← cutLast? path
  let change := fun _ inner =>
    match nodeAt? key inner with
    | none => some (inner ++ [(key, .table .header [])])
    | some (.table .implied entries) => some (setNode key (.table .header entries) inner)
    | some _ => none
  descend? .implied change above .header root

/-- Adds a table to an array of tables. -/
def openArrayTable? (path : List String) (root : Entries) : Option Entries := do
  let (above, key) ← cutLast? path
  let change := fun _ inner =>
    match nodeAt? key inner with
    | none => some (inner ++ [(key, .tables [] [])])
    | some (.tables last before) => some (setNode key (.tables [] (last :: before)) inner)
    | some _ => none
  descend? .implied change above .header root

/-- Adds a value to the table whose section it is in. -/
def addTo? (home path : List String) (v : Toml) (root : Entries) : Option Entries :=
  descend? .implied (fun _ entries => addPair? path v entries) home .header root

mutual

/-- The value that a node holds when the document is complete. -/
def Node.toValue : Node → Toml
  | .value v => v
  | .table _ entries => .table (membersOf entries)
  | .tables last before => .array (tablesOf before [.table (membersOf last)])

/-- The members of a table. -/
def membersOf : List (String × Node) → List (String × Toml)
  | [] => []
  | (key, node) :: rest => (key, node.toValue) :: membersOf rest

/-- Tables, the last one first, in front of more values. -/
def tablesOf : List (List (String × Node)) → List Toml → List Toml
  | [], more => more
  | entries :: rest, more => tablesOf rest (.table (membersOf entries) :: more)

end

end AbiGate.Toml
