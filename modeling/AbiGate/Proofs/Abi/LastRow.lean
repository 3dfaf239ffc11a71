/-
# From rows to a surface

A listing is read row by row, so that two listings one behind the other are read as one. Its members
are put into a contract that shows nothing, one after the other: the contract has the keys of the
members and no others, and holds under each key the last member that has it. If the keys are
different, nothing is replaced, and the order of the rows does not matter.

Key definitions: `Identifier.IsLast`.
Key theorems: `Row.readAll_append`, `Contract.get?_insertAll_eq_some_iff`,
`Contract.sameSurface_insertAll_of_perm`, `readAll_insertAll_last`.
-/
import AbiGate.Proofs.Abi.Collisions

namespace AbiGate

/-! ### Reading -/

namespace Row

variable {contract : String}

theorem exists_readAll_eq_error_iff {rows : List String} :
    (∃ e, readAll contract rows = .error e) ↔ ∃ line ∈ rows, ∃ fault, read line = .error fault := by
  have hread (line : String) : (∃ fault, read line = .error fault) ↔
      ¬∃ found, read line = .ok found := by
    cases read line <;> simp
  have hall : (∃ e, readAll contract rows = .error e) ↔
      ¬∃ members, readAll contract rows = .ok members := by
    cases readAll contract rows <;> simp
  simp only [hall, hread, readAll_eq_ok_iff, exists_and_left, exists_eq, and_true]
  push Not
  rfl

/-- **Two listings one behind the other are read as one.** The first fault in either counts. -/
theorem readAll_append (rows rows' : List String) :
    readAll contract (rows ++ rows') = (do
      let members ← readAll contract rows
      let more ← readAll contract rows'
      return members ++ more) := by
  induction rows with
  | nil =>
    rw [List.nil_append]
    cases readAll contract rows' <;> rfl
  | cons line rest ih =>
    rw [List.cons_append, readAll, readAll, ih]
    cases readFor contract line with
    | error e => rfl
    | ok found =>
      cases readAll contract rest with
      | error e => rfl
      | ok members =>
        cases readAll contract rows' with
        | error e => rfl
        | ok more => exact congrArg Except.ok (List.append_assoc ..).symm

end Row

/-! ### Putting members in -/

/-- Of these members, this is the last one with the key. -/
def Identifier.IsLast (keying : Keying) (members : List Identifier) (key : String)
    (i : Identifier) : Prop :=
  ∃ earlier later, members = earlier ++ i :: later ∧ i.key keying = key ∧
    ∀ j ∈ later, j.key keying ≠ key

namespace Contract

variable {path : Path} {version : UInt64} {keying : Keying} {members members' : List Identifier}

/-- **A contract holds under a key the last member with it,** whose own key it is. -/
theorem get?_insertAll_eq_some_iff {key : String} {i : Identifier} :
    ((new path version).insertAll keying members).identifiers.get? key = some i ↔
      i.IsLast keying members key := by
  have hnone : (new path version).identifiers.get? key = none := rfl
  rw [get?_insertAll, hnone, Option.or_none, List.find?_eq_some_iff_append]
  simp only [decide_eq_true_eq, Bool.not_eq_true', decide_eq_false_iff_not]
  constructor
  · rintro ⟨hkey, later, earlier, hreverse, hlater⟩
    refine ⟨earlier.reverse, later.reverse, ?_, hkey, fun j hj => hlater j (List.mem_reverse.1 hj)⟩
    rw [← List.reverse_reverse members, hreverse]
    simp
  · rintro ⟨earlier, later, rfl, hkey, hlater⟩
    exact ⟨hkey, later.reverse, earlier.reverse, by simp,
      fun j hj => hlater j (List.mem_reverse.1 hj)⟩

/-- If all keys are different, a contract holds every member. -/
theorem get?_insertAll_eq_some_iff_mem (h : (members.map (·.key keying)).Nodup) {key : String}
    {i : Identifier} :
    ((new path version).insertAll keying members).identifiers.get? key = some i ↔
      i ∈ members ∧ i.key keying = key := by
  refine ⟨mem_of_get?_insertAll, ?_⟩
  rintro ⟨hi, rfl⟩
  exact get?_insertAll_of_unique hi fun j hj hkey => List.inj_on_of_nodup_map h hj hi hkey

/-- **If all keys are different, the order of the members does not matter.** -/
theorem sameSurface_insertAll_of_perm (h : (members.map (·.key keying)).Nodup)
    (hperm : members'.Perm members) :
    ((new path version).insertAll keying members').sameSurface
      ((new path version).insertAll keying members) = true := by
  have h' : (members'.map (·.key keying)).Nodup := (hperm.map _).nodup_iff.2 h
  refine decide_eq_true (SortedMap.ext_get? fun key => Option.ext fun i => ?_)
  rw [get?_insertAll_eq_some_iff_mem h', get?_insertAll_eq_some_iff_mem h, hperm.mem_iff]

end Contract

/-! ### From rows to a surface -/

/-- **A surface is what the rows describe, the last one for each key.** A listing with a malformed
row is refused for the first one. Any other one lists what its rows describe, in their order, and
a contract that these members are put into has exactly their keys, with the last member under each.
Under the keying by declaration, rows that describe different declarations may come in any order. -/
theorem readAll_insertAll_last (contract : String) (keying : Keying) (rows : List String)
    (path : Path) (version : UInt64) :
    let holding := fun members => (Contract.new path version).insertAll keying members
    ((∃ e, Row.readAll contract rows = .error e) ↔
      ∃ line ∈ rows, ∃ fault, Row.read line = .error fault) ∧
    (∀ e, Row.readAll contract rows = .error e ↔ ∃ above line below fault,
      rows = above ++ line :: below ∧ (∀ row ∈ above, ∃ found, Row.read row = .ok found) ∧
        Row.read line = .error fault ∧ e = { contract, row := line, fault }) ∧
    (∀ members, Row.readAll contract rows = .ok members ↔
      (∀ line ∈ rows, ∃ found, Row.read line = .ok found) ∧
        members = rows.filterMap Row.member?) ∧
    (∀ rows', Row.readAll contract (rows ++ rows') = do
      let members ← Row.readAll contract rows
      let more ← Row.readAll contract rows'
      return members ++ more) ∧
    ∀ members, Row.readAll contract rows = .ok members →
      (∀ key, key ∈ (holding members).identifiers.keys ↔ ∃ i ∈ members, i.key keying = key) ∧
      (∀ key i, (holding members).identifiers.get? key = some i ↔
        i.IsLast keying members key) ∧
      (keying = .signature → (members.map (·.declaration)).Nodup → ∀ rows', rows'.Perm rows →
        ∃ members', Row.readAll contract rows' = .ok members' ∧
          (holding members').sameSurface (holding members) = true) := by
  intro holding
  refine ⟨Row.exists_readAll_eq_error_iff, fun e => Row.readAll_eq_error_iff,
    fun members => Row.readAll_eq_ok_iff, Row.readAll_append rows, fun members hread => ?_⟩
  refine ⟨fun key => Contract.mem_keys_insertAll.trans List.mem_map,
    fun key i => Contract.get?_insertAll_eq_some_iff, ?_⟩
  rintro rfl hdistinct rows' hperm
  obtain ⟨hall, rfl⟩ := Row.readAll_eq_ok_iff.1 hread
  have hread' : Row.readAll contract rows' = .ok (rows'.filterMap Row.member?) :=
    Row.readAll_eq_ok_iff.2 ⟨fun line hline => hall line (hperm.mem_iff.1 hline), rfl⟩
  exact ⟨_, hread', Contract.sameSurface_insertAll_of_perm hdistinct (hperm.filterMap _)⟩

/-- A heading and two overloads, read and put into a contract from above and from below. -/
theorem readAll_insertAll_last_till :
    let rows := ["| Type | Signature | Selector |", "| function | pay(uint256) | 0x1 |",
      "| function | pay() | 0x2 |"]
    let members : List Identifier := [.declared .function "pay(uint256)" "0x1",
      .declared .function "pay()" "0x2"]
    Row.readAll "Till" rows = .ok members ∧ (members.map (·.declaration)).Nodup ∧
    (∀ key i, (tillHolding members).identifiers.get? key = some i ↔
      i.IsLast .signature members key) ∧
    ∃ members', Row.readAll "Till" rows.reverse = .ok members' ∧
      (tillHolding members').sameSurface (tillHolding members) = true := by
  intro rows members
  have hread : Row.readAll "Till" rows = .ok members := by decide +kernel
  have hdistinct : (members.map (·.declaration)).Nodup := by decide +kernel
  obtain ⟨-, -, -, -, hheld⟩ :=
    readAll_insertAll_last "Till" .signature rows ⟨"contracts/Till.sol"⟩ 1
  obtain ⟨-, hlast, hperm⟩ := hheld members hread
  exact ⟨hread, hdistinct, hlast, hperm rfl hdistinct _ rows.reverse_perm⟩

end AbiGate
