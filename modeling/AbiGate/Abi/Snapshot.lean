/-
# Snapshots

A snapshot holds the tracked contracts of one state of a source tree under their names. A name
is taken once: a second contract with the same name is refused, and the first one stays.

Key definitions: `Snapshot`, `Snapshot.insert`, `DuplicateContract`.
-/
import AbiGate.Abi.Contract

namespace AbiGate

/-- The contracts of one state of a source tree, by name. -/
structure Snapshot where
  contracts : SortedMap String Contract
  deriving DecidableEq, Repr

/-- Two contracts of one tree have the same name. -/
structure DuplicateContract where
  name : String
  first : Path
  second : Path
  deriving DecidableEq, Repr

def DuplicateContract.message (e : DuplicateContract) : String :=
  s!"duplicate contract name {e.name}: declared in {e.first} and {e.second}; " ++
    "upgradeable contracts must have unique names"

namespace Snapshot

/-- The snapshot of a tree without tracked contracts. -/
def empty : Snapshot := ⟨.empty⟩

instance : Inhabited Snapshot := ⟨empty⟩

/-- The contract with a name. -/
def get? (s : Snapshot) (name : String) : Option Contract :=
  s.contracts.get? name

def contains (s : Snapshot) (name : String) : Bool :=
  s.contracts.contains name

/-- The number of contracts. -/
def size (s : Snapshot) : Nat :=
  s.contracts.size

/-- The names, in order. -/
def names (s : Snapshot) : List String :=
  s.contracts.keys

/-- The contracts with their names, in the order of the names. -/
def toList (s : Snapshot) : List (String × Contract) :=
  s.contracts.toList

/-- The snapshot with one more contract, if its name is free. -/
def insert (s : Snapshot) (name : String) (c : Contract) : Except DuplicateContract Snapshot :=
  match s.get? name with
  | some first => .error { name, first := first.path, second := c.path }
  | none => .ok ⟨s.contracts.insert name c⟩

/-! ### Names -/

theorem mem_names {s : Snapshot} {name : String} : name ∈ s.names ↔ s.contains name = true :=
  SortedMap.mem_keys

theorem pairwise_names (s : Snapshot) : s.names.Pairwise (· < ·) :=
  s.contracts.pairwise_keys

theorem nodup_names (s : Snapshot) : s.names.Nodup :=
  s.contracts.nodup_keys

end Snapshot

/-- The snapshots of the two states that are compared. -/
structure SnapshotPair where
  current : Snapshot
  baseline : Snapshot
  deriving DecidableEq, Repr

end AbiGate
