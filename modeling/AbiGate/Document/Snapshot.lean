/-
# Snapshots in documents

A snapshot is an object of its contracts by name, a contract an object with its path, its version
and its members by key. Writing puts names and keys in order. Reading takes any order, passes
over fields it does not know, and fails if a field is missing, given twice or has a value of
another type; of entries with the same name the last one counts.

Key definitions: `Snapshot.toJson`, `Snapshot.ofJson?`, `Contract.toJson`, `Contract.ofJson?`,
`Identifier.toJson`, `Identifier.ofJson?`.
-/
import AbiGate.Abi.Snapshot
import AbiGate.Document.Notation

namespace AbiGate

/-! ### Writing -/

def Identifier.toJson (i : Identifier) : Json :=
  .object [
    ("kind", .string i.kind.word),
    ("name", .string i.name),
    ("declaration", .string i.declaration),
    ("signature", .string i.signature)]

/-- The object of a map, in key order. -/
def SortedMap.toJson {α : Type} (f : α → Json) (m : SortedMap String α) : Json :=
  .object (m.toList.map fun e => (e.1, f e.2))

def Contract.toJson (c : Contract) : Json :=
  .object [
    ("path", .string c.path.text),
    ("abi_version", .ofUInt64 c.version),
    ("identifiers", c.identifiers.toJson Identifier.toJson)]

def Snapshot.toJson (s : Snapshot) : Json :=
  s.contracts.toJson Contract.toJson

/-! ### Reading -/

def Identifier.ofJson? (j : Json) : Option Identifier := do
  match ← Json.documents.record? ["kind", "name", "declaration", "signature"] j with
  | [some kind, some name, some declaration, some signature] =>
    return {
      kind := ← Json.documents.choice? EntryKind.ofWord? kind
      name := ← name.asString?
      declaration := ← declaration.asString?
      signature := ← signature.asString? }
  | _ => none

/-- The map of a list of members; each value must be readable. -/
def SortedMap.ofMembers? {α : Type} (f : Json → Option α) :
    SortedMap String α → List (String × Json) → Option (SortedMap String α)
  | m, [] => some m
  | m, (name, value) :: rest =>
    match f value with
    | some a => ofMembers? f (m.insert name a) rest
    | none => none

/-- The map of an object. -/
def SortedMap.ofJson? {α : Type} (f : Json → Option α) : Json → Option (SortedMap String α)
  | .object members => ofMembers? f .empty members
  | _ => none

def Contract.ofJson? (j : Json) : Option Contract := do
  match ← Json.documents.record? ["path", "abi_version", "identifiers"] j with
  | [some path, some version, some identifiers] =>
    return {
      path := ⟨← path.asString?⟩
      version := ← version.asUInt64?
      identifiers := ← SortedMap.ofJson? Identifier.ofJson? identifiers }
  | _ => none

def Snapshot.ofJson? (j : Json) : Option Snapshot :=
  (SortedMap.ofJson? Contract.ofJson? j).map .mk

end AbiGate
