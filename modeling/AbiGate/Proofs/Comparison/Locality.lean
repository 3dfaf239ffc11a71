/-
# Contract by contract

What a comparison says of a contract depends on what the two snapshots hold under its name, and on
nothing else. All violations are sorted together, and snapshots that hold members under keys that
are not their own can have violations with equal keys; but the key of a violation starts with the
contract, so the sorting keeps the contracts apart and takes each of them by itself. A comparison is
therefore put together from the comparisons of single contracts, in the order of their names, and a
contract that is changed, new or gone leaves alone what is said of the others.

Key definitions: `Snapshot.restrict`, `Snapshot.AgreesOff`, `violationsAt`.
Key theorems: `Violation.arrange_flatMap`, `violations_restrict`, `violations_compare_local`.
-/
import AbiGate.Proofs.Comparison.Stability
import Mathlib.Data.List.Basic

namespace AbiGate

/-! ### Parts of snapshots -/

namespace Snapshot

/-- The contracts whose names pass a test. -/
def restrict (s : Snapshot) (p : String → Bool) : Snapshot :=
  ⟨s.contracts.filterKeys p⟩

/-- Two snapshots hold the same under each name but one: there the contract may be changed, new or
gone. -/
def AgreesOff (name : String) (s s' : Snapshot) : Prop :=
  ∀ other, other ≠ name → s'.get? other = s.get? other

variable {s s' : Snapshot} {p : String → Bool} {name : String}

theorem names_restrict : (s.restrict p).names = s.names.filter p := by
  show (s.toList.filter fun e => p e.1).map (·.1) = (s.toList.map (·.1)).filter p
  rw [List.filter_map]
  rfl

theorem get?_restrict : (s.restrict p).get? name = if p name then s.get? name else none := by
  apply Option.ext
  intro c
  have hrestrict : (s.restrict p).get? name = some c ↔ s.get? name = some c ∧ p name = true := by
    show (s.contracts.filterKeys p).get? name = some c ↔ s.contracts.get? name = some c ∧ _
    rw [SortedMap.get?_eq_some_iff, SortedMap.get?_eq_some_iff]
    exact List.mem_filter
  rw [hrestrict]
  by_cases hp : p name = true <;> simp [hp]

/-- Snapshots that agree off a name agree on all other names. -/
theorem AgreesOff.restrict_eq (h : s.AgreesOff name s') :
    s'.restrict (· ≠ name) = s.restrict (· ≠ name) := by
  have hget : ∀ other,
      (s'.restrict (· ≠ name)).get? other = (s.restrict (· ≠ name)).get? other := by
    intro other
    rw [get?_restrict, get?_restrict]
    by_cases hother : other = name
    · simp [hother]
    · rw [h other hother]
  exact congrArg mk (SortedMap.ext_get? hget)

end Snapshot

/-! ### Sorting part by part -/

namespace Violation

/-- **Parts that are in order among each other can be sorted one by one.** -/
theorem arrange_flatMap {α : Type} {l : List α} {f : α → List Violation}
    (h : l.Pairwise fun a b => ∀ v ∈ f a, ∀ w ∈ f b, v.sortKey < w.sortKey) :
    arrange (l.flatMap f) = l.flatMap fun a => arrange (f a) := by
  have hordered : (l.flatMap fun a => arrange (f a)).Pairwise fun v w =>
      ¬w.sortKey < v.sortKey := by
    rw [List.pairwise_flatMap]
    constructor
    · intro a _
      exact pairwise_arrange (f a)
    · refine h.imp fun {a b} hab v hv w hw => ?_
      have hvw : v.sortKey < w.sortKey :=
        hab v ((arrange_perm _).mem_iff.1 hv) w ((arrange_perm _).mem_iff.1 hw)
      exact StrictTotal.asymm hvw
  have hkeys : ∀ key, (l.flatMap fun a => arrange (f a)).filter (·.sortKey = key) =
      (l.flatMap f).filter (·.sortKey = key) := by
    intro key
    rw [List.filter_flatMap, List.filter_flatMap]
    simp only [filter_sortKey_arrange]
  exact arrange_eq_iff.2 ⟨hordered, hkeys⟩

end Violation

/-! ### What is found in a contract -/

/-- What is found in the contract that the baseline has under a name, in the order of its keys. -/
def violationsAt (current baseline : Snapshot) (policy : Policy) (name : String) :
    List Violation :=
  ((baseline.get? name).map (violationsOf current policy name)).getD []

section

variable {current current' baseline baseline' : Snapshot} {policy : Policy} {name : String}
  {before : Contract}

theorem violationsAt_of_get? (was : baseline.get? name = some before) :
    violationsAt current baseline policy name = violationsOf current policy name before := by
  simp [violationsAt, was]

theorem violationsAt_of_get?_eq_none (h : baseline.get? name = none) :
    violationsAt current baseline policy name = [] := by
  simp [violationsAt, h]

theorem contract_of_mem_violationsAt {v : Violation}
    (hv : v ∈ violationsAt current baseline policy name) : v.contract = name := by
  cases was : baseline.get? name with
  | none =>
    rw [violationsAt_of_get?_eq_none was] at hv
    cases hv
  | some before =>
    rw [violationsAt_of_get? was] at hv
    exact contract_of_mem_violationsOf hv

/-- What is found in a contract is told by what both snapshots hold under its name. -/
theorem violationsAt_congr (hcurrent : current'.get? name = current.get? name)
    (hbaseline : baseline'.get? name = baseline.get? name) :
    violationsAt current' baseline' policy name = violationsAt current baseline policy name := by
  unfold violationsAt violationsOf
  rw [hcurrent, hbaseline]

/-- A comparison sorts what it finds in the contracts of the baseline. -/
theorem violations_eq_arrange (current baseline : Snapshot) (policy : Policy) :
    (compare current baseline policy).violations =
      Violation.arrange (baseline.names.flatMap (violationsAt current baseline policy)) := by
  have hfound : baseline.names.flatMap (violationsAt current baseline policy) =
      baseline.toList.flatMap fun e => violationsOf current policy e.1 e.2 := by
    show (baseline.toList.map (·.1)).flatMap _ = _
    rw [List.flatMap_map]
    apply List.flatMap_congr
    intro e he
    exact violationsAt_of_get? (SortedMap.get?_eq_some_iff.2 he)
  rw [hfound, Violation.violations_compare]

end

/-! ### All contracts -/

variable (current baseline : Snapshot) (policy : Policy)

/-- Each contract is sorted by itself. -/
theorem violations_eq_flatMap_arrange :
    (compare current baseline policy).violations =
      baseline.names.flatMap fun name =>
        Violation.arrange (violationsAt current baseline policy name) := by
  rw [violations_eq_arrange]
  apply Violation.arrange_flatMap
  refine baseline.pairwise_names.imp fun {name name'} hlt v hv w hw => ?_
  apply Violation.sortKey_lt_of_contract_lt
  rw [contract_of_mem_violationsAt hv, contract_of_mem_violationsAt hw]
  exact hlt

theorem filter_contract_flatMap_violationsAt (p : String → Bool) : ∀ names : List String,
    (names.flatMap (violationsAt current baseline policy)).filter (fun v => p v.contract) =
      (names.filter p).flatMap (violationsAt current baseline policy)
  | [] => rfl
  | name :: rest => by
    have ih := filter_contract_flatMap_violationsAt p rest
    rw [List.flatMap_cons, List.filter_append, ih, List.filter_cons]
    by_cases hp : p name = true
    · have hall : (violationsAt current baseline policy name).filter (fun v => p v.contract) =
          violationsAt current baseline policy name := by
        rw [List.filter_eq_self]
        intro v hv
        rw [contract_of_mem_violationsAt hv, hp]
      rw [hall, if_pos hp, List.flatMap_cons]
    · have hnone : (violationsAt current baseline policy name).filter (fun v => p v.contract) =
          [] := by
        rw [List.filter_eq_nil_iff]
        intro v hv
        rw [contract_of_mem_violationsAt hv]
        exact hp
      rw [hnone, if_neg hp, List.nil_append]

/-- **Parts of two snapshots have the violations of the contracts that are in them.** -/
theorem violations_restrict (p : String → Bool) :
    (compare (current.restrict p) (baseline.restrict p) policy).violations =
      (compare current baseline policy).violations.filter fun v => p v.contract := by
  have hparts : (baseline.names.filter p).flatMap
        (violationsAt (current.restrict p) (baseline.restrict p) policy) =
      (baseline.names.filter p).flatMap (violationsAt current baseline policy) := by
    apply List.flatMap_congr
    intro name hname
    have hp : p name = true := (List.mem_filter.1 hname).2
    apply violationsAt_congr
    · rw [Snapshot.get?_restrict, if_pos hp]
    · rw [Snapshot.get?_restrict, if_pos hp]
  calc (compare (current.restrict p) (baseline.restrict p) policy).violations
      = Violation.arrange ((baseline.names.filter p).flatMap
          (violationsAt (current.restrict p) (baseline.restrict p) policy)) := by
        rw [violations_eq_arrange, Snapshot.names_restrict]
    _ = Violation.arrange ((baseline.names.flatMap
          (violationsAt current baseline policy)).filter fun v => p v.contract) := by
        rw [hparts, filter_contract_flatMap_violationsAt]
    _ = (compare current baseline policy).violations.filter fun v => p v.contract := by
        rw [Violation.arrange_filter, ← violations_eq_arrange]

/-- The violations of a contract are what is found in it, sorted. -/
theorem filter_contract_violations (name : String) :
    (compare current baseline policy).violations.filter (·.contract = name) =
      Violation.arrange (violationsAt current baseline policy name) := by
  have hone : (baseline.names.filter (· = name)).flatMap (violationsAt current baseline policy) =
      violationsAt current baseline policy name := by
    rw [List.filter_eq]
    by_cases h : name ∈ baseline.names
    · rw [List.count_eq_one_of_mem baseline.nodup_names h, List.replicate_one,
        List.flatMap_singleton]
    · have hnone : baseline.get? name = none := by
        rw [Snapshot.mem_names, Bool.not_eq_true] at h
        exact SortedMap.not_contains_iff.1 h
      rw [List.count_eq_zero_of_not_mem h, violationsAt_of_get?_eq_none hnone]
      rfl
  rw [violations_eq_arrange, ← Violation.arrange_filter,
    filter_contract_flatMap_violationsAt current baseline policy (· = name), hone]

/-- The violations of the other contracts do not tell what became of one contract. -/
theorem filter_violations_of_agreesOff {current current' baseline baseline' : Snapshot}
    {policy : Policy} {name : String} (hcurrent : current.AgreesOff name current')
    (hbaseline : baseline.AgreesOff name baseline') :
    (compare current' baseline' policy).violations.filter (·.contract ≠ name) =
      (compare current baseline policy).violations.filter (·.contract ≠ name) := by
  calc (compare current' baseline' policy).violations.filter (·.contract ≠ name)
      = (compare (current'.restrict (· ≠ name)) (baseline'.restrict (· ≠ name))
          policy).violations := (violations_restrict current' baseline' policy (· ≠ name)).symm
    _ = (compare (current.restrict (· ≠ name)) (baseline.restrict (· ≠ name))
          policy).violations := by rw [hcurrent.restrict_eq, hbaseline.restrict_eq]
    _ = (compare current baseline policy).violations.filter (·.contract ≠ name) :=
        violations_restrict current baseline policy (· ≠ name)

/-- **A comparison is made contract by contract.** The violations are those of the single contracts
of the baseline, in the order of their names. So a contract that is changed, new or gone on either
side leaves the violations of all others as they are, and in their order. -/
theorem violations_compare_local :
    baseline.names.Pairwise (· < ·) ∧
    (compare current baseline policy).violations = baseline.names.flatMap (fun name =>
      (compare (current.restrict (· = name)) (baseline.restrict (· = name)) policy).violations) ∧
    ∀ current' baseline' name, current.AgreesOff name current' →
      baseline.AgreesOff name baseline' →
      (compare current' baseline' policy).violations.filter (·.contract ≠ name) =
        (compare current baseline policy).violations.filter (·.contract ≠ name) := by
  refine ⟨baseline.pairwise_names, ?_, fun current' baseline' name hcurrent hbaseline => ?_⟩
  · rw [violations_eq_flatMap_arrange]
    apply List.flatMap_congr
    intro name hname
    calc Violation.arrange (violationsAt current baseline policy name)
        = (compare current baseline policy).violations.filter (·.contract = name) :=
          (filter_contract_violations current baseline policy name).symm
      _ = (compare (current.restrict (· = name)) (baseline.restrict (· = name))
            policy).violations := (violations_restrict current baseline policy (· = name)).symm
  · exact filter_violations_of_agreesOff hcurrent hbaseline

end AbiGate
