/-
# Members that fall together

Members are put into a contract one after the other, and one that has the key of an earlier one
takes its place. So a contract has as many members as there are different keys, and it has all that
were put in exactly if their keys are different.

Under the keying by declaration overloads have different keys. The key tells nothing of the kind,
however: a function and an event of one declaration fall together, and what is listed first is lost.
If the declarations of a listing are different, each of its members is held, and a listing that
lacks the row of one shows another surface.

Key theorems: `Contract.size_insertAll`, `Contract.forall_get?_insertAll_iff`,
`Contract.sameSurface_insertAll_append`, `held_iff_distinct_declarations`.
-/
import AbiGate.Proofs.Abi.Listing
import Mathlib.Data.List.Dedup

namespace AbiGate

namespace Contract

variable {path : Path} {version : UInt64} {keying : Keying} {members : List Identifier}

/-- The keys of a contract are those of the members that were put in. -/
theorem mem_keys_insertAll {key : String} :
    key ∈ ((new path version).insertAll keying members).identifiers.keys ↔
      key ∈ members.map (·.key keying) := by
  rw [SortedMap.mem_keys, contains_insertAll_iff, List.mem_map]

/-- **A contract has a member for each different key.** -/
theorem size_insertAll :
    ((new path version).insertAll keying members).identifiers.size =
      (members.map (·.key keying)).dedup.length := by
  have hperm : ((new path version).insertAll keying members).identifiers.keys.Perm
      (members.map (·.key keying)).dedup := by
    rw [List.perm_ext_iff_of_nodup (SortedMap.nodup_keys _) (List.nodup_dedup _)]
    intro key
    rw [mem_keys_insertAll, List.mem_dedup]
  rw [← hperm.length_eq, SortedMap.keys, List.length_map, SortedMap.size]

/-- A contract has as many members as were put in exactly if all their keys are different. -/
theorem size_insertAll_eq_length_iff :
    ((new path version).insertAll keying members).identifiers.size = members.length ↔
      (members.map (·.key keying)).Nodup := by
  have hlength : members.length = (members.map (·.key keying)).length := by
    rw [List.length_map]
  rw [size_insertAll, hlength, ← List.dedup_eq_self]
  exact ⟨(List.dedup_sublist _).eq_of_length, congrArg List.length⟩

/-- **All members are held exactly if no two different ones have the same key.** -/
theorem forall_get?_insertAll_iff :
    (∀ i ∈ members,
      ((new path version).insertAll keying members).identifiers.get? (i.key keying) = some i) ↔
      ∀ i ∈ members, ∀ j ∈ members, i.key keying = j.key keying → i = j := by
  constructor
  · intro h i hi j hj hkey
    have hheld := h i hi
    rw [hkey, h j hj] at hheld
    exact (Option.some.inj hheld).symm
  · intro h i hi
    exact get?_insertAll_of_unique hi fun j hj hkey => h j hj i hi hkey

/-- If all keys are different, a contract without one of the members shows another surface. -/
theorem sameSurface_insertAll_append {above below : List Identifier} {i : Identifier}
    (h : ((above ++ i :: below).map (·.key keying)).Nodup) :
    ((new path version).insertAll keying (above ++ below)).sameSurface
      ((new path version).insertAll keying (above ++ i :: below)) = false := by
  rw [sameSurface, decide_eq_false_iff_not]
  intro heq
  -- the key of the member is a key of the one contract and of none of the others
  have hthere : i.key keying ∈
      ((new path version).insertAll keying (above ++ i :: below)).identifiers.keys :=
    mem_keys_insertAll.2 (List.mem_map_of_mem (List.mem_append_right above List.mem_cons_self))
  rw [← heq, mem_keys_insertAll, List.map_append] at hthere
  rw [List.map_append, List.map_cons, List.nodup_middle, List.nodup_cons] at h
  exact h.1 hthere

end Contract

/-! ### Listings -/

section

variable {contract : String} {rows : List String} {members : List Identifier}

/-- A listing without one of its rows can still be read, and lacks what the row describes. -/
theorem Row.readAll_append_of_readAll {above below : List String} {line : String}
    (h : readAll contract (above ++ line :: below) = .ok members) :
    readAll contract (above ++ below) =
        .ok (above.filterMap member? ++ below.filterMap member?) ∧
      members = above.filterMap member? ++ (member? line).toList ++ below.filterMap member? := by
  obtain ⟨hall, rfl⟩ := readAll_eq_ok_iff.1 h
  refine ⟨readAll_eq_ok_iff.2 ⟨fun row hrow => hall row ?_, List.filterMap_append.symm⟩, ?_⟩
  · rcases List.mem_append.1 hrow with h1 | h1
    · exact List.mem_append_left _ h1
    · exact List.mem_append_right _ (List.mem_cons_of_mem _ h1)
  · rw [List.filterMap_append]
    cases hline : member? line <;> simp [hline]

/-- **Nothing of a listing is lost exactly if its declarations are different.** A function and an
event of one declaration are told apart by no key, so kinds do not count here. If the declarations
are different, a row that describes a member cannot be left out without a change of the surface,
and any other row can. -/
theorem held_iff_distinct_declarations (h : Row.readAll contract rows = .ok members) (path : Path)
    (version : UInt64) :
    let holding := fun members => (Contract.new path version).insertAll .signature members
    ((∀ i ∈ members, (holding members).identifiers.get? i.declaration = some i) ↔
      ∀ i ∈ members, ∀ j ∈ members, i.declaration = j.declaration → i = j) ∧
    ((holding members).identifiers.size = members.length ↔
      (members.map (·.declaration)).Nodup) ∧
    ((members.map (·.declaration)).Nodup → ∀ above line below, rows = above ++ line :: below →
      ∃ rest, Row.readAll contract (above ++ below) = .ok rest ∧
        ((holding rest).sameSurface (holding members) = false ↔
          ∃ i, Row.read line = .ok (some i))) := by
  intro holding
  refine ⟨Contract.forall_get?_insertAll_iff, Contract.size_insertAll_eq_length_iff, ?_⟩
  rintro hnodup above line below rfl
  obtain ⟨hrest, hmembers⟩ := Row.readAll_append_of_readAll h
  refine ⟨_, hrest, ?_⟩
  simp only [← Row.member?_eq_some_iff]
  cases hline : Row.member? line with
  | none =>
    have heq : members = above.filterMap Row.member? ++ below.filterMap Row.member? := by
      simpa [hline] using hmembers
    simp [holding, heq, Contract.sameSurface]
  | some i =>
    have heq : members = above.filterMap Row.member? ++ i :: below.filterMap Row.member? := by
      simpa [hline] using hmembers
    have hother : (holding (above.filterMap Row.member? ++ below.filterMap Row.member?)).sameSurface
        (holding members) = false := by
      rw [heq] at hnodup ⊢
      exact Contract.sameSurface_insertAll_append hnodup
    simp only [hother, Option.some.injEq, exists_eq']

end

/-- A contract of a till that holds these members by their declarations. -/
def tillHolding (members : List Identifier) : Contract :=
  (Contract.new ⟨"contracts/Till.sol"⟩ 1).insertAll .signature members

/-- Of two overloads and an event nothing is lost, and only the heading can be left out. -/
theorem held_iff_distinct_declarations_till :
    let rows := ["| Type | Signature | Selector |", "| function | pay(uint256) | 0x1 |",
      "| function | pay() | 0x2 |", "| event | Paid(uint256) | 0x3 |"]
    let members : List Identifier := [.declared .function "pay(uint256)" "0x1",
      .declared .function "pay()" "0x2", .declared .event "Paid(uint256)" "0x3"]
    Row.readAll "Till" rows = .ok members ∧ (members.map (·.declaration)).Nodup ∧
    (∀ i ∈ members, (tillHolding members).identifiers.get? i.declaration = some i) ∧
    (tillHolding members).identifiers.size = members.length ∧
    ∀ above line below, rows = above ++ line :: below →
      ∃ rest, Row.readAll "Till" (above ++ below) = .ok rest ∧
        ((tillHolding rest).sameSurface (tillHolding members) = false ↔
          ∃ i, Row.read line = .ok (some i)) := by
  intro rows members
  have hread : Row.readAll "Till" rows = .ok members := by decide +kernel
  have hdistinct : (members.map (·.declaration)).Nodup := by decide +kernel
  have hsame : ∀ i ∈ members, ∀ j ∈ members, i.declaration = j.declaration → i = j := by
    decide +kernel
  obtain ⟨hheld, hsize, hdropped⟩ :=
    held_iff_distinct_declarations hread ⟨"contracts/Till.sol"⟩ 1
  exact ⟨hread, hdistinct, hheld.2 hsame, hsize.2 hdistinct, hdropped hdistinct⟩

/-- Of a function and an event of one declaration only the event is held, although they differ in
their kinds: the row of the function can be left out, and so can the heading. -/
theorem lost_function_of_shared_declaration :
    let heading := "| Type | Signature | Selector |"
    let function := "| function | Paid(uint256) | 0x1 |"
    let event := "| event | Paid(uint256) | 0x2 |"
    let members : List Identifier := [.declared .function "Paid(uint256)" "0x1",
      .declared .event "Paid(uint256)" "0x2"]
    Row.readAll "Till" [heading, function, event] = .ok members ∧
    (members.map fun i => (i.kind, i.declaration)).Nodup ∧
    (tillHolding members).identifiers.values = [.declared .event "Paid(uint256)" "0x2"] ∧
    (tillHolding members).identifiers.size ≠ members.length ∧
    (Row.readAll "Till" [heading, event]).map (fun rest =>
      (tillHolding rest).sameSurface (tillHolding members)) = .ok true ∧
    (Row.readAll "Till" [function, event]).map (fun rest =>
      (tillHolding rest).sameSurface (tillHolding members)) = .ok true := by
  decide +kernel

end AbiGate
