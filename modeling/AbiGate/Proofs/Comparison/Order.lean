/-
# The order of violations

Violations are sorted by their keys; those with equal keys would stay in the order in which they
were found. If each contract of the baseline holds its members under their own keys, in either
keying, no two violations have equal keys: members of one contract differ in their names under one
keying, and in their declarations under the other. Then the violations are strictly increasing, and
comparisons that find the same list it in the same order.

Key definitions: `Contract.Keyed`, `Violation.precedes`.
Key theorems: `Contract.keyed_insertAll`, `pairwise_sortKey_lt`, `violations_eq_of_perm`.
-/
import AbiGate.Proofs.Abi.Listing
import AbiGate.Proofs.Comparison.Findings

namespace AbiGate

/-- Each member is held under its own key. -/
def Contract.Keyed (keying : Keying) (c : Contract) : Prop :=
  ∀ key i, c.identifiers.get? key = some i → i.key keying = key

/-- A contract that members were put into holds them under their keys. -/
theorem Contract.keyed_insertAll (keying : Keying) (path : Path) (version : UInt64)
    (members : List Identifier) :
    ((Contract.new path version).insertAll keying members).Keyed keying :=
  fun _ _ hi => (Contract.mem_of_get?_insertAll hi).2

/-! ### A strict total order -/

theorem not_lt_trans {κ : Type} [LT κ] [DecidableLT κ] [DecidableEq κ] [StrictTotal κ] {a b c : κ}
    (h : ¬b < a) (h' : ¬c < b) : ¬c < a := by
  intro hca
  by_cases heq : b = c
  · exact h (heq ▸ hca)
  · exact h (StrictTotal.trans (SortedMap.lt_of_not_lt_of_ne h' (Ne.symm heq)) hca)

/-- Whether a violation may be listed before another one: its key is not greater. -/
def Violation.precedes (v w : Violation) : Bool :=
  !decide (w.sortKey < v.sortKey)

theorem Violation.precedes_iff {v w : Violation} :
    v.precedes w = true ↔ ¬w.sortKey < v.sortKey := by
  simp [precedes]

theorem Violation.precedes_trans (v w u : Violation) (h : v.precedes w = true)
    (h' : w.precedes u = true) : v.precedes u = true := by
  rw [precedes_iff] at h h' ⊢
  exact not_lt_trans h h'

theorem Violation.precedes_total (v w : Violation) : (v.precedes w || w.precedes v) = true := by
  rw [Bool.or_eq_true, precedes_iff, precedes_iff]
  by_cases h : w.sortKey < v.sortKey
  · exact .inr (StrictTotal.asymm h)
  · exact .inl h

/-- Sorting by a key puts no greater key before a lesser one. -/
theorem pairwise_mergeSort_not_lt (l : List Violation) :
    (l.mergeSort fun v w => !decide (w.sortKey < v.sortKey)).Pairwise fun v w =>
      ¬w.sortKey < v.sortKey :=
  (List.pairwise_mergeSort Violation.precedes_trans Violation.precedes_total l).imp
    Violation.precedes_iff.1

theorem Violation.sortKey_lt_of_contract_lt {v w : Violation} (h : v.contract < w.contract) :
    v.sortKey < w.sortKey :=
  List.cons_lt_cons_iff.2 (.inl h)

/-! ### Equal keys -/

theorem old?_of_changeOf?_eq {now before : Contract} {policy : Policy} {key : String}
    {old : Identifier} {change : Change} (h : changeOf? now before policy key old = some change) :
    change.old? = some old := by
  cases changeOf?_eq_some_iff.1 h <;> rfl

theorem sortKey_changedViolation {name : String} {now before : Contract} {change : Change}
    {old : Identifier} (h : change.old? = some old) :
    (changedViolation name now before change).sortKey = [name, old.name, old.declaration] := by
  simp [changedViolation, Violation.sortKey, Violation.identifier?, h]

/-- No two violations of a contract have equal keys. -/
theorem pairwise_sortKey_violationsOf {current : Snapshot} {policy : Policy} {name : String}
    {before : Contract} {keying : Keying} (h : before.Keyed keying) :
    (violationsOf current policy name before).Pairwise fun v w => v.sortKey ≠ w.sortKey := by
  cases is : current.get? name with
  | none =>
    unfold violationsOf
    rw [is]
    cases policy.removals <;> simp
  | some now =>
    rw [violationsOf_of_get? is]
    split
    · exact .nil
    · refine List.pairwise_map.2 (List.pairwise_filterMap.2 ?_)
      refine before.identifiers.sorted.imp_of_mem fun {e e'} he he' hlt change hc change' hc' => ?_
      rw [sortKey_changedViolation (old?_of_changeOf?_eq hc),
        sortKey_changedViolation (old?_of_changeOf?_eq hc')]
      intro heq
      simp only [List.cons.injEq, true_and, and_true] at heq
      have hkey := h e.1 e.2 (SortedMap.get?_eq_some_iff.2 he)
      have hkey' := h e'.1 e'.2 (SortedMap.get?_eq_some_iff.2 he')
      have hsame : e.1 = e'.1 := by
        rw [← hkey, ← hkey']
        cases keying with
        | name => exact heq.1
        | signature => exact heq.2
      exact StrictTotal.irrefl _ (hsame ▸ hlt)

theorem head?_sortKey (v : Violation) : v.sortKey.head? = some v.contract := rfl

variable {current baseline : Snapshot} {policy : Policy}

/-- **No two violations have equal keys,** if members are held under their own keys. -/
theorem pairwise_sortKey_ne
    (h : ∀ name before, baseline.get? name = some before → ∃ keying, before.Keyed keying) :
    (compare current baseline policy).violations.Pairwise fun v w => v.sortKey ≠ w.sortKey := by
  unfold compare
  rw [(List.mergeSort_perm _ _).pairwise_iff Ne.symm, List.pairwise_flatMap]
  constructor
  · intro e he
    obtain ⟨keying, hkeyed⟩ := h e.1 e.2 (SortedMap.get?_eq_some_iff.2 he)
    exact pairwise_sortKey_violationsOf hkeyed
  · refine baseline.contracts.sorted.imp fun {e e'} hlt v hv w hw heq => ?_
    have hcontract : v.contract = w.contract := by
      simpa [head?_sortKey] using congrArg List.head? heq
    rw [contract_of_mem_violationsOf hv, contract_of_mem_violationsOf hw] at hcontract
    exact StrictTotal.irrefl _ (hcontract ▸ hlt)

/-- **The violations are strictly increasing,** if members are held under their own keys. -/
theorem pairwise_sortKey_lt
    (h : ∀ name before, baseline.get? name = some before → ∃ keying, before.Keyed keying) :
    (compare current baseline policy).violations.Pairwise fun v w => v.sortKey < w.sortKey := by
  have hnot : (compare current baseline policy).violations.Pairwise fun v w =>
      ¬w.sortKey < v.sortKey := pairwise_mergeSort_not_lt _
  exact (hnot.and (pairwise_sortKey_ne h)).imp fun h =>
    SortedMap.lt_of_not_lt_of_ne h.1 (Ne.symm h.2)

/-- Two comparisons with the same violations list them in the same order. -/
theorem violations_eq_of_perm {current' baseline' : Snapshot} {policy' : Policy}
    (h : ∀ name before, baseline.get? name = some before → ∃ keying, before.Keyed keying)
    (h' : ∀ name before, baseline'.get? name = some before → ∃ keying, before.Keyed keying)
    (hperm : (compare current baseline policy).violations.Perm
      (compare current' baseline' policy').violations) :
    (compare current baseline policy).violations =
      (compare current' baseline' policy').violations := by
  refine List.Perm.eq_of_pairwise (fun v w _ _ hlt hlt' => ?_) (pairwise_sortKey_lt h)
    (pairwise_sortKey_lt h') hperm
  exact absurd hlt' (StrictTotal.asymm hlt)

end AbiGate
