/-
# What needs a new version

Key definitions: `Removals`, `Policy`, `nextVersion`.
-/

namespace AbiGate

/-- Whether a removal needs a new version, or is let through. -/
inductive Removals where
  | requireBump
  | exempt
  deriving DecidableEq, Repr

namespace Removals

/-- The word for the policy. -/
def word : Removals → String
  | requireBump => "require-bump"
  | exempt => "exempt"

/-- The policy that a word names. -/
def ofWord? : String → Option Removals
  | "require-bump" => some requireBump
  | "exempt" => some exempt
  | _ => none

theorem ofWord?_eq_some_iff {s : String} {k : Removals} : ofWord? s = some k ↔ s = k.word := by
  constructor
  · intro h
    unfold ofWord? at h
    split at h <;> cases h <;> rfl
  · rintro rfl
    cases k <;> rfl

end Removals

/-- The policy of a comparison. -/
structure Policy where
  removals : Removals := .requireBump
  deriving DecidableEq, Repr

instance : Inhabited Policy := ⟨{}⟩

/-- The least version above a version; the greatest version stays itself. -/
def nextVersion (v : UInt64) : UInt64 :=
  if v.toNat + 1 < UInt64.size then v + 1 else v

theorem toNat_nextVersion (v : UInt64) :
    (nextVersion v).toNat = min (v.toNat + 1) (UInt64.size - 1) := by
  unfold nextVersion
  have h := v.toNat_lt
  simp only [UInt64.size]
  split
  · next hlt =>
    rw [UInt64.toNat_add]
    simp only [UInt64.toNat_one]
    omega
  · omega

end AbiGate
