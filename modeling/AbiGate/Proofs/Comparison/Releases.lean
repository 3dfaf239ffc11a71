/-
# Releases one after another

If removals count and no version is ever lowered, clean steps add up: a release that could be
reached from an older one by steps that were each clean is clean against the older one, too. A
contract may pass one step by its version and another one by showing all that it showed, and a
greater version in between covers what changed in any other step.

Both conditions are needed. A version that is lowered again takes back what it had covered, and
under a policy that lets removals through a member can go in one step and come back changed in the
next.

Key definitions: `Contract.Passes`, `Upgrade`.
Key theorems: `Contract.Passes.trans`, `Upgrade.trans`, `pairwise_isClean_of_isChain`.
-/
import AbiGate.Proofs.Comparison.Findings

namespace AbiGate

/-- A contract has a greater version than before, or shows all that it showed. -/
def Contract.Passes (before now : Contract) : Prop :=
  before.version < now.version ∨
    ∀ key old, before.identifiers.get? key = some old → now.identifiers.get? key = some old

/-- A step from one release to the next: no contract that is in both has a lesser version than
before, and the comparison of the two is clean. -/
structure Upgrade (policy : Policy) (old new : Snapshot) : Prop where
  not_lowered : ∀ name before now, old.get? name = some before → new.get? name = some now →
    before.version ≤ now.version
  clean : (compare new old policy).isClean = true

/-- It is enough to look at the entries of the older release. -/
theorem upgrade_iff {policy : Policy} {old new : Snapshot} :
    Upgrade policy old new ↔
      (∀ e ∈ old.toList, ∀ now ∈ new.get? e.1, e.2.version ≤ now.version) ∧
      (compare new old policy).isClean = true := by
  constructor
  · rintro ⟨hversions, hclean⟩
    refine ⟨SortedMap.forall_get?_iff.1 ?_, hclean⟩
    intro name before was now is
    exact hversions name before now was is
  · rintro ⟨hversions, hclean⟩
    refine ⟨fun name before now was is => ?_, hclean⟩
    exact SortedMap.forall_get?_iff.2 hversions name before was now is

instance (policy : Policy) (old new : Snapshot) : Decidable (Upgrade policy old new) :=
  decidable_of_iff _ upgrade_iff.symm

/-! ### Two steps -/

/-- Two steps of a contract are one, if neither lowers its version. -/
theorem Contract.Passes.trans {before between now : Contract}
    (hfirst : before.version ≤ between.version) (hsecond : between.version ≤ now.version)
    (h : before.Passes between) (h' : between.Passes now) : before.Passes now := by
  simp only [UInt64.le_iff_toNat_le] at hfirst hsecond
  rcases h with hlt | hkept
  · -- the first step has a greater version, and the second one keeps it
    left
    rw [UInt64.lt_iff_toNat_lt] at hlt ⊢
    omega
  rcases h' with hlt | hkept'
  · left
    rw [UInt64.lt_iff_toNat_lt] at hlt ⊢
    omega
  · right
    intro key old hold
    exact hkept' key old (hkept key old hold)

variable {policy : Policy}

/-- **Two steps are one step.** -/
theorem Upgrade.trans (hp : policy.removals = .requireBump) {old between new : Snapshot}
    (h : Upgrade policy old between) (h' : Upgrade policy between new) :
    Upgrade policy old new := by
  have hpasses := (isClean_iff hp).1 h.clean
  have hpasses' := (isClean_iff hp).1 h'.clean
  -- a contract of the first release is in the second one, and so in the third one
  have hthrough : ∀ name before, old.get? name = some before → ∃ now, new.get? name = some now ∧
      before.version ≤ now.version ∧ before.Passes now := by
    intro name before was
    obtain ⟨mid, hmid, hfirst⟩ := hpasses name before was
    obtain ⟨now, is, hsecond⟩ := hpasses' name mid hmid
    have hle := h.not_lowered name before mid was hmid
    have hle' := h'.not_lowered name mid now hmid is
    exact ⟨now, is, UInt64.le_trans hle hle', .trans hle hle' hfirst hsecond⟩
  refine ⟨fun name before now was is => ?_, (isClean_iff hp).2 fun name before was => ?_⟩
  · obtain ⟨now', is', hle, -⟩ := hthrough name before was
    obtain rfl : now = now' := Option.some.inj (is.symm.trans is')
    exact hle
  · obtain ⟨now, is, -, hpass⟩ := hthrough name before was
    exact ⟨now, is, hpass⟩

/-! ### Any number of steps -/

/-- **Clean steps add up.** If removals count, and each of a row of releases is a clean step from
the one before that lowers no version, then each is clean against every older one. -/
theorem pairwise_isClean_of_isChain (hp : policy.removals = .requireBump)
    {releases : List Snapshot} (h : releases.IsChain (Upgrade policy)) :
    releases.Pairwise fun old new => (compare new old policy).isClean = true := by
  have htrans : Trans (Upgrade policy) (Upgrade policy) (Upgrade policy) := ⟨Upgrade.trans hp⟩
  exact h.pairwise.imp Upgrade.clean

/-- A release of one contract, with functions by their declarations and signatures. -/
def shopRelease (version : UInt64) (functions : List (String × String)) : Snapshot :=
  ⟨.ofList [("Shop", (Contract.new ⟨"contracts/Shop.sol"⟩ version).insertAll .signature
    (functions.map fun f => .declared .function f.1 f.2))]⟩

/-- A function is changed with a new version, and another one is added without. -/
theorem pairwise_isClean_shop :
    let releases := [shopRelease 1 [("buy(uint256)", "0x1")],
      shopRelease 2 [("buy(address)", "0x2")],
      shopRelease 2 [("buy(address)", "0x2"), ("sell()", "0x3")]]
    releases.IsChain (Upgrade {}) ∧
      releases.Pairwise fun old new => (compare new old {}).isClean = true := by
  intro releases
  have h : releases.IsChain (Upgrade {}) := by decide +kernel
  exact ⟨h, pairwise_isClean_of_isChain rfl h⟩

/-- A version that is lowered again takes back what it had covered. -/
example :
    let first := shopRelease 1 [("buy(uint256)", "0x1")]
    let second := shopRelease 2 [("buy(address)", "0x2")]
    let third := shopRelease 1 [("buy(address)", "0x2")]
    (compare second first {}).isClean = true ∧ (compare third second {}).isClean = true ∧
      (compare third first {}).isClean = false := by
  decide +kernel

/-- A removal that is let through hides a change. -/
example :
    let first := shopRelease 1 [("buy(uint256)", "0x1")]
    let second := shopRelease 1 []
    let third := shopRelease 1 [("buy(address)", "0x2")]
    Upgrade ⟨.exempt⟩ first second ∧ Upgrade ⟨.exempt⟩ second third ∧
      (compare third first ⟨.exempt⟩).isClean = false := by
  decide +kernel

end AbiGate
