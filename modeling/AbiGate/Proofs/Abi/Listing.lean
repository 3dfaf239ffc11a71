/-
# From a listing to a contract

A listing is read row by row: a row describes a member, or tells nothing, or makes the listing
unreadable. The members are put into a contract one after the other, so that under each key the
last one stays. So a contract holds under a key what the last row with that key describes.

Key definitions: `Row.member?`, `Row.Last`.
Key theorems: `Row.readAll_eq_ok_iff`, `Contract.get?_insertAll`, `Tracked.get?_contract`.
-/
import AbiGate.Extraction.Extract
import Mathlib.Data.List.Basic

namespace AbiGate

namespace Row

/-- The member that a row describes. -/
def member? (line : String) : Option Identifier :=
  (read line).toOption.join

theorem member?_eq_some_iff {line : String} {i : Identifier} :
    member? line = some i ↔ read line = .ok (some i) := by
  unfold member?
  rcases read line with e | found
  · simp [Except.toOption]
  · simp [Except.toOption]

/-- Of the rows with a key, the last one describes this member. -/
def Last (keying : Keying) (rows : List String) (key : String) (i : Identifier) : Prop :=
  ∃ above line below, rows = above ++ line :: below ∧ read line = .ok (some i) ∧
    i.key keying = key ∧ ∀ later ∈ below, ∀ j, read later = .ok (some j) → j.key keying ≠ key

/-! ### Reading -/

theorem readFor_eq_ok_iff {contract line : String} {found : Option Identifier} :
    readFor contract line = .ok found ↔ read line = .ok found := by
  unfold readFor
  cases read line with
  | ok f => simp
  | error fault => simp

/-- **A listing is readable if all its rows are, and then lists what they describe.** -/
theorem readAll_eq_ok_iff {contract : String} : ∀ {rows : List String} {members : List Identifier},
    readAll contract rows = .ok members ↔
      (∀ line ∈ rows, ∃ found, read line = .ok found) ∧ members = rows.filterMap member?
  | [], members => by
    simp only [readAll, Except.ok.injEq, List.not_mem_nil, false_implies, implies_true, true_and,
      List.filterMap_nil]
    exact eq_comm
  | line :: rest, members => by
    unfold readAll
    cases hr : readFor contract line with
    | error e =>
      simp only [reduceCtorEq, List.mem_cons, forall_eq_or_imp, false_iff, not_and]
      intro h
      obtain ⟨⟨found, hf⟩, -⟩ := h
      rw [readFor_eq_ok_iff.2 hf] at hr
      cases hr
    | ok found =>
      have hread := readFor_eq_ok_iff.1 hr
      have hmember : member? line = found := by simp [member?, hread, Except.toOption]
      have hfirst : ∃ f, read line = .ok f := ⟨found, hread⟩
      have ih := @readAll_eq_ok_iff contract rest
      cases hrest : readAll contract rest with
      | error e =>
        simp only [reduceCtorEq, List.mem_cons, forall_eq_or_imp, false_iff, not_and]
        rintro ⟨-, hall⟩ -
        rw [ih.2 ⟨hall, rfl⟩] at hrest
        cases hrest
      | ok more =>
        obtain ⟨hall, rfl⟩ := ih.1 hrest
        have hcons : (line :: rest).filterMap member? =
            found.toList ++ rest.filterMap member? := by
          cases found <;> simp [hmember]
        simp only [Except.ok.injEq, List.mem_cons, forall_eq_or_imp, hcons]
        exact ⟨fun h => ⟨⟨hfirst, hall⟩, h.symm⟩, fun h => h.2.symm⟩

/-- **A listing that is not readable is refused for its first malformed row.** -/
theorem readAll_eq_error_iff {contract : String} {rows : List String} {e : MalformedRow} :
    readAll contract rows = .error e ↔ ∃ above line below fault, rows = above ++ line :: below ∧
      (∀ row ∈ above, ∃ found, read row = .ok found) ∧ read line = .error fault ∧
      e = { contract, row := line, fault } := by
  induction rows with
  | nil => simp [readAll]
  | cons first rest ih =>
    cases hfirst : read first with
    | error fault =>
      have hall : readAll contract (first :: rest) = .error { contract, row := first, fault } := by
        simp only [readAll, readFor, hfirst]
      rw [hall, Except.error.injEq]
      constructor
      · rintro rfl
        exact ⟨[], first, rest, fault, rfl, by simp, hfirst, rfl⟩
      · rintro ⟨above, line, below, fault', hrows, habove, hline, rfl⟩
        cases above with
        | nil =>
          obtain ⟨rfl, rfl⟩ := List.cons.inj hrows
          rw [Except.error.inj (hfirst.symm.trans hline)]
        | cons row above =>
          obtain ⟨rfl, rfl⟩ := List.cons.inj hrows
          obtain ⟨found, hfound⟩ := habove first List.mem_cons_self
          cases hfirst.symm.trans hfound
    | ok found =>
      have hall : readAll contract (first :: rest) = .error e ↔
          readAll contract rest = .error e := by
        simp only [readAll, readFor, hfirst]
        cases readAll contract rest <;> simp
      rw [hall, ih]
      constructor
      · rintro ⟨above, line, below, fault, rfl, habove, h⟩
        exact ⟨first :: above, line, below, fault, rfl,
          List.forall_mem_cons.2 ⟨⟨found, hfirst⟩, habove⟩, h⟩
      · rintro ⟨above, line, below, fault, hrows, habove, hline, rfl⟩
        cases above with
        | nil =>
          obtain ⟨rfl, rfl⟩ := List.cons.inj hrows
          cases hfirst.symm.trans hline
        | cons row above =>
          obtain ⟨rfl, rfl⟩ := List.cons.inj hrows
          exact ⟨above, line, below, fault, rfl, (List.forall_mem_cons.1 habove).2, hline, rfl⟩

/-- The last member with a key is described by the last row with it. -/
theorem find?_reverse_eq_some_iff {keying : Keying} {rows : List String} {key : String}
    {i : Identifier} :
    ((rows.filterMap member?).reverse.find? fun j => j.key keying = key) = some i ↔
      Last keying rows key i := by
  rw [← List.filterMap_reverse, List.find?_filterMap]
  simp only [Option.bind_eq_some_iff, List.find?_eq_some_iff_append]
  constructor
  · intro h
    obtain ⟨line, ⟨hany, below, above, hl, hbelow⟩, hi⟩ := h
    rw [hi, Option.any_some, decide_eq_true_eq] at hany
    refine ⟨above.reverse, line, below.reverse, ?_, member?_eq_some_iff.1 hi, hany, ?_⟩
    · rw [← List.reverse_reverse rows, hl]; simp
    · intro later hlater j hj hkey
      have hnot := hbelow later (List.mem_reverse.1 hlater)
      rw [member?_eq_some_iff.2 hj] at hnot
      simp [hkey] at hnot
  · intro h
    obtain ⟨above, line, below, rfl, hi, hkey, hbelow⟩ := h
    have hmember := member?_eq_some_iff.2 hi
    refine ⟨line, ⟨by simp [hmember, hkey], below.reverse, above.reverse, by simp, ?_⟩, hmember⟩
    intro later hlater
    cases hj : member? later with
    | none => rfl
    | some j =>
      have hne := hbelow later (List.mem_reverse.1 hlater) j (member?_eq_some_iff.1 hj)
      simp [hne]

end Row

/-! ### Putting members in -/

/-- **The last member under a key stays.** -/
theorem Contract.get?_insertAll {keying : Keying} {key : String} :
    ∀ {l : List Identifier} {c : Contract},
      (c.insertAll keying l).identifiers.get? key =
        (l.reverse.find? fun i => i.key keying = key).or (c.identifiers.get? key)
  | [], c => by simp [insertAll]
  | i :: l, c => by
    have ih := @get?_insertAll keying key l (c.insert keying i)
    have hstep : c.insertAll keying (i :: l) = (c.insert keying i).insertAll keying l := rfl
    rw [hstep, ih, List.reverse_cons, List.find?_append, Option.or_assoc]
    congr 1
    simp only [Contract.insert, SortedMap.get?_insert]
    by_cases hk : key = i.key keying
    · simp [hk]
    · simp [hk, Ne.symm hk]

section

variable {path : Path} {version : UInt64} {keying : Keying} {members : List Identifier}
  {key : String} {i : Identifier}

/-- What a contract holds was put in, and is held under its own key. -/
theorem Contract.mem_of_get?_insertAll
    (h : ((new path version).insertAll keying members).identifiers.get? key = some i) :
    i ∈ members ∧ i.key keying = key := by
  have hfound : members.reverse.find? (fun j => j.key keying = key) = some i := by
    simpa [get?_insertAll, new] using h
  exact ⟨List.mem_reverse.1 (List.mem_of_find?_eq_some hfound), by
    simpa using List.find?_some hfound⟩

/-- Under a key something is held exactly if a member with the key was put in. -/
theorem Contract.contains_insertAll_iff :
    ((new path version).insertAll keying members).identifiers.contains key = true ↔
      ∃ j ∈ members, j.key keying = key := by
  rw [SortedMap.contains, get?_insertAll]
  simp [new]

/-- A member is held if no other one has its key. -/
theorem Contract.get?_insertAll_of_unique (hi : i ∈ members)
    (h : ∀ j ∈ members, j.key keying = i.key keying → j = i) :
    ((new path version).insertAll keying members).identifiers.get? (i.key keying) = some i := by
  have hcontains : ((new path version).insertAll keying members).identifiers.contains
      (i.key keying) = true := contains_insertAll_iff.2 ⟨i, hi, rfl⟩
  obtain ⟨j, hheld⟩ := Option.isSome_iff_exists.1 hcontains
  obtain ⟨hj, hkey⟩ := mem_of_get?_insertAll hheld
  rw [hheld, h j hj hkey]

end

theorem Contract.insertAll_version {keying : Keying} : ∀ {l : List Identifier} {c : Contract},
    (c.insertAll keying l).version = c.version
  | [], _ => rfl
  | i :: l, c => insertAll_version (l := l) (c := c.insert keying i)

theorem Contract.insertAll_path {keying : Keying} : ∀ {l : List Identifier} {c : Contract},
    (c.insertAll keying l).path = c.path
  | [], _ => rfl
  | i :: l, c => insertAll_path (l := l) (c := c.insert keying i)

namespace Tracked

variable {t : Tracked} {keying : Keying} {rows : List String} {c : Contract}

theorem contract_eq_ok_iff : t.contract keying rows = .ok c ↔
    (∀ line ∈ rows, ∃ found, Row.read line = .ok found) ∧
      c = (Contract.new t.path t.version).insertAll keying (rows.filterMap Row.member?) := by
  unfold contract
  cases hr : Row.readAll t.name rows with
  | error e =>
    simp only [Except.map, reduceCtorEq, false_iff, not_and]
    intro hall
    rw [Row.readAll_eq_ok_iff.2 ⟨hall, rfl⟩] at hr
    cases hr
  | ok members =>
    obtain ⟨hall, rfl⟩ := Row.readAll_eq_ok_iff.1 hr
    simp only [Except.map, Except.ok.injEq]
    exact ⟨fun h => ⟨hall, h.symm⟩, fun h => h.2.symm⟩

theorem contract_eq_error_iff {e : MalformedRow} :
    t.contract keying rows = .error e ↔ Row.readAll t.name rows = .error e := by
  unfold contract
  cases Row.readAll t.name rows <;> simp [Except.map]

theorem contract_path (h : t.contract keying rows = .ok c) : c.path = t.path := by
  rw [(contract_eq_ok_iff.1 h).2, Contract.insertAll_path]; rfl

theorem contract_version (h : t.contract keying rows = .ok c) : c.version = t.version := by
  rw [(contract_eq_ok_iff.1 h).2, Contract.insertAll_version]; rfl

/-- **A contract holds under a key what the last row with that key describes.** -/
theorem get?_contract (h : t.contract keying rows = .ok c) {key : String} {i : Identifier} :
    c.identifiers.get? key = some i ↔ Row.Last keying rows key i := by
  rw [(contract_eq_ok_iff.1 h).2, Contract.get?_insertAll, ← Row.find?_reverse_eq_some_iff]
  simp [Contract.new]

end Tracked

end AbiGate
