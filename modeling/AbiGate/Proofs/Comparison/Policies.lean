/-
# What the policies differ in

A policy can let removals through. That leaves out the removals and nothing else: a member whose
place another one has taken is still reported, as modified, and all that is reported stands in the
same order. The policy is asked while the changes are found, and the violations are sorted behind
that, so that what is left out is left out before the sorting; it could as well be left out of the
sorted list.

Key definitions: `Change.isRemoval`.
Key theorems: `changeOf?_exempt`, `violationsOf_exempt`, `compare_exempt`.
-/
import AbiGate.Proofs.Comparison.Stability

namespace AbiGate

/-- Whether something is gone: a member that nothing has taken the place of, or a contract. -/
def Change.isRemoval : Change → Bool
  | modified _ _ => false
  | removed _ => true
  | contractRemoved _ => true

/-- Of one member the policy that lets removals through finds what the other one finds, unless
that is a removal. -/
theorem changeOf?_exempt (now before : Contract) (key : String) (old : Identifier) :
    changeOf? now before ⟨.exempt⟩ key old =
      (changeOf? now before ⟨.requireBump⟩ key old).filter fun change => !change.isRemoval := by
  unfold changeOf?
  cases now.identifiers.get? key with
  | some new =>
    by_cases hne : new = old
    · simp [hne]
    · simp [hne, Option.filter, Change.isRemoval]
  | none => cases successor? now before old <;> simp [Option.filter, Change.isRemoval]

theorem changes_exempt (now before : Contract) :
    changes now before ⟨.exempt⟩ =
      (changes now before ⟨.requireBump⟩).filter fun change => !change.isRemoval := by
  unfold changes
  rw [List.filter_filterMap]
  simp only [changeOf?_exempt]

theorem violationsOf_exempt (current : Snapshot) (name : String) (before : Contract) :
    violationsOf current ⟨.exempt⟩ name before =
      (violationsOf current ⟨.requireBump⟩ name before).filter fun v => !v.change.isRemoval := by
  cases is : current.get? name with
  | none => simp [violationsOf, is, goneViolation, Change.isRemoval]
  | some now =>
    rw [violationsOf_of_get? is, violationsOf_of_get? is]
    split
    · rfl
    · rw [changes_exempt, List.filter_map]
      rfl

/-- **The policies differ by removals only.** A comparison that lets removals through is the one
that does not, without its removals. -/
theorem compare_exempt (current baseline : Snapshot) :
    compare current baseline ⟨.exempt⟩ =
      { compare current baseline ⟨.requireBump⟩ with
        violations := (compare current baseline ⟨.requireBump⟩).violations.filter
          fun v => !v.change.isRemoval } := by
  have hviolations : (compare current baseline ⟨.exempt⟩).violations =
      (compare current baseline ⟨.requireBump⟩).violations.filter
        fun v => !v.change.isRemoval := by
    rw [Violation.violations_compare, Violation.violations_compare, ← Violation.arrange_filter,
      List.filter_flatMap]
    simp only [violationsOf_exempt]
  rw [← hviolations]
  rfl

end AbiGate
