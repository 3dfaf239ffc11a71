/-
# Violations with equal keys

Snapshots that hold members under keys that are not their own can have violations with equal keys.
Those stay in the order in which they were found. So what is sorted is told by two things: no
greater key comes before a lesser one, and of each key it holds what was there, in the same order.
What is left out before the sorting can therefore be left out behind it.

Key definitions: `Violation.arrange`.
Key theorems: `Violation.filter_sortKey_arrange`, `Violation.arrange_eq_iff`,
`Violation.arrange_filter`.
-/
import AbiGate.Proofs.Comparison.Order

namespace AbiGate

namespace Violation

/-- The violations in the order of their keys. -/
def arrange (l : List Violation) : List Violation :=
  l.mergeSort precedes

/-- A comparison lists what it finds in the contracts of the baseline. -/
theorem violations_compare (current baseline : Snapshot) (policy : Policy) :
    (compare current baseline policy).violations =
      arrange (baseline.toList.flatMap fun e => violationsOf current policy e.1 e.2) :=
  rfl

theorem arrange_perm (l : List Violation) : (arrange l).Perm l :=
  List.mergeSort_perm l precedes

theorem pairwise_arrange (l : List Violation) :
    (arrange l).Pairwise fun v w => ¬w.sortKey < v.sortKey :=
  pairwise_mergeSort_not_lt l

/-- **Violations with equal keys stay in the order in which they were found.** -/
theorem filter_sortKey_arrange (l : List Violation) (key : List String) :
    (arrange l).filter (·.sortKey = key) = l.filter (·.sortKey = key) := by
  -- those of one key are in order as they are, so sorting keeps them as a sublist
  have hordered : (l.filter (·.sortKey = key)).Pairwise fun v w => v.precedes w = true := by
    refine List.pairwise_of_forall_mem_list fun v hv w hw => ?_
    have hv' : v.sortKey = key := by simpa using (List.mem_filter.1 hv).2
    have hw' : w.sortKey = key := by simpa using (List.mem_filter.1 hw).2
    rw [precedes_iff, hv', hw']
    exact StrictTotal.irrefl key
  have hsublist : (l.filter (·.sortKey = key)).Sublist (arrange l) :=
    List.sublist_mergeSort precedes_trans precedes_total hordered List.filter_sublist
  have hfiltered : (l.filter (·.sortKey = key)).Sublist
      ((arrange l).filter (·.sortKey = key)) := by
    simpa using hsublist.filter (·.sortKey = key)
  exact (hfiltered.eq_of_length ((arrange_perm l).filter _).length_eq.symm).symm

/-- Violations in order are told by what there is of each key. -/
theorem eq_of_filter_sortKey_eq : ∀ {l l' : List Violation},
    (l.Pairwise fun v w => ¬w.sortKey < v.sortKey) →
    (l'.Pairwise fun v w => ¬w.sortKey < v.sortKey) →
    (∀ key, l.filter (·.sortKey = key) = l'.filter (·.sortKey = key)) → l = l'
  | [], [], _, _, _ => rfl
  | [], w :: l', _, _, h => by simpa using h w.sortKey
  | v :: l, [], _, _, h => by simpa using h v.sortKey
  | v :: l, w :: l', hl, hl', h => by
    obtain ⟨hv, hrest⟩ := List.pairwise_cons.1 hl
    obtain ⟨hw, hrest'⟩ := List.pairwise_cons.1 hl'
    have mem_iff : ∀ u, u ∈ v :: l ↔ u ∈ w :: l' := fun u => by
      simpa using congrArg (u ∈ ·) (h u.sortKey)
    have hkey : v.sortKey = w.sortKey := by
      refine StrictTotal.eq_of_not_lt (fun hlt => ?_) fun hlt => ?_
      · rcases List.mem_cons.1 ((mem_iff v).1 List.mem_cons_self) with rfl | hmem
        · exact StrictTotal.irrefl _ hlt
        · exact hw v hmem hlt
      · rcases List.mem_cons.1 ((mem_iff w).2 List.mem_cons_self) with rfl | hmem
        · exact StrictTotal.irrefl _ hlt
        · exact hv w hmem hlt
    have hhead := h v.sortKey
    simp only [List.filter_cons, hkey, decide_true, ↓reduceIte, List.cons.injEq] at hhead
    obtain ⟨rfl, -⟩ := hhead
    congr 1
    refine eq_of_filter_sortKey_eq hrest hrest' fun key => ?_
    have hcons := h key
    simp only [List.filter_cons] at hcons
    split at hcons
    · exact (List.cons.inj hcons).2
    · exact hcons

/-- What is sorted is in order and holds of each key what was there. -/
theorem arrange_eq_iff {l l' : List Violation} :
    arrange l = l' ↔ (l'.Pairwise fun v w => ¬w.sortKey < v.sortKey) ∧
      ∀ key, l'.filter (·.sortKey = key) = l.filter (·.sortKey = key) := by
  constructor
  · rintro rfl
    exact ⟨pairwise_arrange l, filter_sortKey_arrange l⟩
  · rintro ⟨hordered, hkeys⟩
    refine eq_of_filter_sortKey_eq (pairwise_arrange l) hordered fun key => ?_
    rw [filter_sortKey_arrange, hkeys]

/-- **Violations can be left out before the sorting or behind it.** -/
theorem arrange_filter (p : Violation → Bool) (l : List Violation) :
    arrange (l.filter p) = (arrange l).filter p := by
  refine arrange_eq_iff.2 ⟨(pairwise_arrange l).filter p, fun key => ?_⟩
  rw [List.filter_comm, filter_sortKey_arrange, List.filter_comm]

end Violation

end AbiGate
