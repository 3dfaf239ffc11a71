/-
# Contracts as they are written down

An outline lists the members of a contract, each with the name that its declaration shows. It makes
a contract under either keying. If no bare name stands for two members, either keying tells all
members apart, and both contracts hold the same members, each under its key.

Key definitions: `Outline`, `Outline.contract`, `Outline.Plain`, `Outlines.snapshot`.
Key theorems: `Outline.get?_contract_eq_some_iff`, `Outline.toList_contract_perm`.
-/
import AbiGate.Abi.Snapshot
import AbiGate.Proofs.Abi.Listing
import Mathlib.Data.List.Dedup

namespace AbiGate

/-- A contract with the list of its members. -/
structure Outline where
  path : Path
  version : UInt64
  members : List Identifier
  /-- The name of a member is read off its declaration, as `Identifier.declared` does. -/
  name_eq : ∀ i ∈ members, i.name = Identifier.nameOf i.declaration

namespace Outline

/-- The contract that holds the members under their keys. -/
def contract (o : Outline) (keying : Keying) : Contract :=
  (Contract.new o.path o.version).insertAll keying o.members

/-- The outline of members by their kinds, declarations and signatures. -/
def ofRows (path : Path) (version : UInt64) (rows : List (EntryKind × String × String)) :
    Outline where
  path
  version
  members := rows.map fun r => .declared r.1 r.2.1 r.2.2
  name_eq i hi := by
    obtain ⟨_, -, rfl⟩ := List.mem_map.1 hi
    rfl

/-- No bare name stands for two members. The same member may be listed twice. -/
def Plain (o : Outline) : Prop :=
  ∀ i ∈ o.members, ∀ j ∈ o.members, i.name = j.name → i = j

instance (o : Outline) : Decidable o.Plain :=
  inferInstanceAs (Decidable (∀ i ∈ o.members, ∀ j ∈ o.members, i.name = j.name → i = j))

variable {o o' : Outline} {keying : Keying} {key : String} {i j : Identifier}

@[simp] theorem contract_path (o : Outline) (keying : Keying) :
    (o.contract keying).path = o.path :=
  Contract.insertAll_path

@[simp] theorem contract_version (o : Outline) (keying : Keying) :
    (o.contract keying).version = o.version :=
  Contract.insertAll_version

/-- Under either keying, equal keys mean equal names. -/
theorem name_eq_of_key_eq (hi : i ∈ o.members) (hj : j ∈ o'.members)
    (h : i.key keying = j.key keying) : i.name = j.name := by
  cases keying with
  | name => exact h
  | signature => rw [o.name_eq i hi, o'.name_eq j hj, show i.declaration = j.declaration from h]

/-- What a contract holds is a member of its outline, under its own key. -/
theorem mem_of_get?_contract (h : (o.contract keying).identifiers.get? key = some i) :
    i ∈ o.members ∧ i.key keying = key :=
  Contract.mem_of_get?_insertAll h

/-- **A contract holds the members of its outline under their keys, and nothing else.** -/
theorem get?_contract_eq_some_iff (h : o.Plain) :
    (o.contract keying).identifiers.get? key = some i ↔ i ∈ o.members ∧ i.key keying = key := by
  refine ⟨mem_of_get?_contract, ?_⟩
  rintro ⟨hi, rfl⟩
  exact Contract.get?_insertAll_of_unique hi fun j hj hkey =>
    h j hj i hi (name_eq_of_key_eq hj hi hkey)

/-- Either keying makes the same entries, but for their keys and their order. -/
theorem toList_contract_perm (h : o.Plain) (keying : Keying) :
    (o.contract keying).identifiers.toList.Perm
      (o.members.dedup.map fun i => (i.key keying, i)) := by
  have hnodup : (o.contract keying).identifiers.toList.Nodup := by
    refine List.Pairwise.imp ?_ (o.contract keying).identifiers.sorted
    rintro e e' hlt rfl
    exact StrictTotal.irrefl _ hlt
  have hnodup' : (o.members.dedup.map fun i => (i.key keying, i)).Nodup :=
    o.members.nodup_dedup.map fun i j heq => (Prod.mk.inj heq).2
  rw [List.perm_ext_iff_of_nodup hnodup hnodup']
  rintro ⟨key, i⟩
  rw [← SortedMap.get?_eq_some_iff, get?_contract_eq_some_iff h]
  simp only [List.mem_map, List.mem_dedup, Prod.mk.injEq]
  exact ⟨fun ⟨hi, hkey⟩ => ⟨i, hi, hkey, rfl⟩, fun ⟨_, hj, hkey, heq⟩ => heq ▸ ⟨hj, hkey⟩⟩

end Outline

/-! ### Snapshots -/

/-- Outlines by the names of their contracts. -/
abbrev Outlines := SortedMap String Outline

/-- The snapshot of the contracts that the outlines make under a keying. -/
def Outlines.snapshot (s : Outlines) (keying : Keying) : Snapshot where
  contracts :=
    { toList := s.toList.map fun e => (e.1, e.2.contract keying)
      sorted := List.pairwise_map.2 s.sorted }

namespace Outlines

variable (s : Outlines) (keying : Keying)

theorem toList_snapshot :
    (s.snapshot keying).toList = s.toList.map fun e => (e.1, e.2.contract keying) := rfl

theorem get?_snapshot (name : String) :
    (s.snapshot keying).get? name = (s.get? name).map fun o => o.contract keying := by
  show SortedMap.lookup name (s.toList.map _) = (SortedMap.lookup name s.toList).map _
  induction s.toList with
  | nil => rfl
  | cons e rest ih =>
    simp only [List.map_cons, SortedMap.lookup, ih]
    split <;> rfl

@[simp] theorem names_snapshot : (s.snapshot keying).names = s.keys := by
  simp [Snapshot.names, SortedMap.keys, snapshot, Function.comp_def]

@[simp] theorem contains_snapshot (name : String) :
    (s.snapshot keying).contains name = s.contains name := by
  show ((s.snapshot keying).get? name).isSome = (s.get? name).isSome
  rw [get?_snapshot, Option.isSome_map]

end Outlines

end AbiGate
