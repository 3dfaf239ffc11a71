/-
# Additions are safe

If removals count, nothing that is added to a snapshot makes a member of the baseline a violation
that was none: a member violates exactly if it is not held as it was, and what is held stays held.
What is said of a member can change, because one that is added can take the place of another one.
But that only turns a removal into a modification. A member that counts as modified, by its key or
by a successor, has something at its place in every greater contract, and so is not removed there.

The same holds on the other side: in a baseline with fewer members none is a violation that was
none before, although there are more keys that a successor can have.

Key definitions: `Contract.Within`, `Snapshot.Within`, `Snapshot.GrowsBeside`, `Reports`.
Key theorems: `exists_became_iff`, `Became.stays_modified`, `reports_iff`, `exists_reports_iff`,
`additions_safe`.
-/
import AbiGate.Proofs.Comparison.Locality

namespace AbiGate

/-! ### Greater contracts and snapshots -/

/-- A contract holds all that another one holds, at the same version, and maybe more. -/
structure Contract.Within (c d : Contract) : Prop where
  version_eq : d.version = c.version
  kept : ∀ key i, c.identifiers.get? key = some i → d.identifiers.get? key = some i

/-- Each contract of a snapshot is within the one that another snapshot has under its name. -/
def Snapshot.Within (s s' : Snapshot) : Prop :=
  ∀ name c, s.get? name = some c → ∃ d, s'.get? name = some d ∧ c.Within d

/-- A snapshot grows by members and by contracts that a baseline does not have. -/
structure Snapshot.GrowsBeside (s baseline s' : Snapshot) : Prop where
  within : s.Within s'
  not_added : ∀ name before, baseline.get? name = some before → s.get? name = none →
    s'.get? name = none

theorem Contract.within_iff {c d : Contract} : c.Within d ↔
    d.version = c.version ∧ ∀ e ∈ c.identifiers.toList, d.identifiers.get? e.1 = some e.2 := by
  rw [← SortedMap.forall_get?_iff (p := fun e => d.identifiers.get? e.1 = some e.2)]
  exact ⟨fun h => ⟨h.version_eq, h.kept⟩, fun h => ⟨h.1, h.2⟩⟩

instance (c d : Contract) : Decidable (c.Within d) :=
  decidable_of_iff _ Contract.within_iff.symm

instance (s s' : Snapshot) : Decidable (s.Within s') :=
  decidable_of_iff (∀ e ∈ s.toList, ∃ d ∈ s'.get? e.1, e.2.Within d)
    (SortedMap.forall_get?_iff
      (p := fun e : String × Contract => ∃ d, s'.get? e.1 = some d ∧ e.2.Within d)).symm

theorem Snapshot.growsBeside_iff {s baseline s' : Snapshot} : s.GrowsBeside baseline s' ↔
    s.Within s' ∧ ∀ e ∈ baseline.toList, s.get? e.1 = none → s'.get? e.1 = none := by
  have hbaseline := SortedMap.forall_get?_iff (m := baseline.contracts)
    (p := fun e => s.get? e.1 = none → s'.get? e.1 = none)
  constructor
  · intro h
    exact ⟨h.within, hbaseline.1 h.not_added⟩
  · intro h
    exact ⟨h.1, hbaseline.2 h.2⟩

instance (s baseline s' : Snapshot) : Decidable (s.GrowsBeside baseline s') :=
  decidable_of_iff _ Snapshot.growsBeside_iff.symm

/-- A contract of the baseline that is there behind additions was there before. -/
theorem Snapshot.GrowsBeside.exists_within {s baseline s' : Snapshot} {name : String}
    {before now' : Contract} (h : s.GrowsBeside baseline s')
    (was : baseline.get? name = some before) (is' : s'.get? name = some now') :
    ∃ now, s.get? name = some now ∧ now.Within now' := by
  cases is : s.get? name with
  | none =>
    have hnone : s'.get? name = none := h.not_added name before was is
    rw [hnone] at is'
    cases is'
  | some now =>
    obtain ⟨d, hd, hwithin⟩ := h.within name now is
    obtain rfl : now' = d := Option.some.inj (is'.symm.trans hd)
    exact ⟨now, rfl, hwithin⟩

/-! ### One member -/

section

variable {now now' before : Contract} {policy : Policy} {key : String} {old : Identifier}

/-- **If removals count, a member has become something exactly if it is not held as it was.** -/
theorem exists_became_iff (counts : policy.removals = .requireBump) :
    (∃ change, Became now before policy key old change) ↔
      now.identifiers.get? key ≠ some old := by
  constructor
  · rintro ⟨change, h⟩ hold
    cases h with
    | replaced held hne =>
      rw [hold] at held
      exact hne (Option.some.inj held).symm
    | succeeded gone next =>
      rw [hold] at gone
      cases gone
    | removed gone none counts =>
      rw [hold] at gone
      cases gone
  · intro hnot
    cases hget : now.identifiers.get? key with
    | some new =>
      have hne : new ≠ old := by
        rintro rfl
        exact hnot hget
      exact ⟨_, .replaced hget hne⟩
    | none =>
      cases hnext : successor? now before old with
      | some new => exact ⟨_, .succeeded hget (successor?_eq_some_iff.1 hnext)⟩
      | none => exact ⟨_, .removed hget (successor?_eq_none_iff.1 hnext) counts⟩

/-- What can have taken the place of a member still can if more is held. -/
theorem Candidate.of_within {key : String} {i : Identifier} (h : Candidate now before old key i)
    (hwithin : now.Within now') : Candidate now' before old key i :=
  ⟨hwithin.kept key i h.held, h.name_eq, h.kind_eq, h.fresh⟩

/-- **What is modified is not removed if more is held.** -/
theorem Became.stays_modified {new : Identifier} {change : Change}
    (h : Became now before policy key old (.modified old new)) (hwithin : now.Within now')
    (h' : Became now' before policy key old change) : ∃ new', change = .modified old new' := by
  cases h' with
  | @replaced new' held hne => exact ⟨new', rfl⟩
  | @succeeded new' gone next => exact ⟨new', rfl⟩
  | removed gone none counts =>
    exfalso
    cases h with
    | replaced held hne =>
      have hthere : now'.identifiers.get? key = some new := hwithin.kept key new held
      rw [gone] at hthere
      cases hthere
    | succeeded _ next =>
      obtain ⟨key', hcandidate, -⟩ := next
      exact none key' new (hcandidate.of_within hwithin)

end

/-! ### What is reported -/

/-- A comparison reports a change of the member that the baseline has under a key: one of the
violations is what there is to be found at that place. -/
def Reports (current baseline : Snapshot) (policy : Policy) (name key : String) (change : Change) :
    Prop :=
  ∃ v ∈ (compare current baseline policy).violations,
    Finding current baseline policy (.member name key) v ∧ v.change = change

section

variable {current current' baseline baseline' : Snapshot} {policy : Policy} {name key : String}
  {change change' : Change}

/-- What is reported is what a member has become in a contract without a greater version. -/
theorem reports_iff : Reports current baseline policy name key change ↔
    ∃ before now old, baseline.get? name = some before ∧ current.get? name = some now ∧
      now.version ≤ before.version ∧ before.identifiers.get? key = some old ∧
      Became now before policy key old change := by
  constructor
  · rintro ⟨v, -, hfinding, rfl⟩
    cases hfinding with
    | changed was is version held became => exact ⟨_, _, _, was, is, version, held, became⟩
  · rintro ⟨before, now, old, was, is, version, held, became⟩
    have hfinding := Finding.changed was is version held became
    exact ⟨_, mem_violations_iff_finding.2 ⟨_, hfinding⟩, hfinding, rfl⟩

/-- If removals count, something is reported of each member that is not held as it was. -/
theorem exists_reports_iff (counts : policy.removals = .requireBump) :
    (∃ change, Reports current baseline policy name key change) ↔
      ∃ before now old, baseline.get? name = some before ∧ current.get? name = some now ∧
        now.version ≤ before.version ∧ before.identifiers.get? key = some old ∧
        now.identifiers.get? key ≠ some old := by
  constructor
  · rintro ⟨change, h⟩
    obtain ⟨before, now, old, was, is, version, held, became⟩ := reports_iff.1 h
    exact ⟨before, now, old, was, is, version, held, (exists_became_iff counts).1 ⟨_, became⟩⟩
  · rintro ⟨before, now, old, was, is, version, held, hnot⟩
    obtain ⟨change, became⟩ : ∃ change, Became now before policy key old change :=
      (exists_became_iff counts).2 hnot
    exact ⟨change, reports_iff.2 ⟨before, now, old, was, is, version, held, became⟩⟩

/-- Of a greater snapshot nothing is reported at a new place. -/
theorem exists_reports_of_growsBeside (counts : policy.removals = .requireBump)
    (hgrows : current.GrowsBeside baseline current')
    (h : ∃ change, Reports current' baseline policy name key change) :
    ∃ change, Reports current baseline policy name key change := by
  rw [exists_reports_iff counts] at h ⊢
  obtain ⟨before, now', old, was, is', version, held, hnot⟩ := h
  obtain ⟨now, is, hwithin⟩ := hgrows.exists_within was is'
  refine ⟨before, now, old, was, is, ?_, held, fun hold => ?_⟩
  · rw [← hwithin.version_eq]
    exact version
  · exact hnot (hwithin.kept key old hold)

/-- What is reported as modified is reported as modified of a greater snapshot, if at all. -/
theorem Reports.stays_modified {old new : Identifier}
    (h : Reports current baseline policy name key (.modified old new))
    (hgrows : current.GrowsBeside baseline current')
    (h' : Reports current' baseline policy name key change') :
    ∃ new', change' = .modified old new' := by
  obtain ⟨before, now, old₁, was, is, -, held, became⟩ := reports_iff.1 h
  obtain ⟨before', now', old₂, was', is', -, held', became'⟩ := reports_iff.1 h'
  -- both are about the same member of the baseline, and it is the one that was modified
  obtain rfl : before = before' := Option.some.inj (was.symm.trans was')
  obtain rfl : old₁ = old₂ := Option.some.inj (held.symm.trans held')
  obtain rfl : old = old₁ := Option.some.inj (old?_of_changeOf?_eq became.changeOf?_eq)
  obtain ⟨found, hfound, hwithin⟩ := hgrows.exists_within was is'
  obtain rfl : now = found := Option.some.inj (is.symm.trans hfound)
  exact became.stays_modified hwithin became'

/-- The violation of a contract that is gone is the same behind additions. -/
theorem filter_violations_of_gone (hgrows : current.GrowsBeside baseline current')
    (gone : current.get? name = none) :
    (compare current' baseline policy).violations.filter (·.contract = name) =
      (compare current baseline policy).violations.filter (·.contract = name) := by
  have hat : violationsAt current' baseline policy name =
      violationsAt current baseline policy name := by
    cases was : baseline.get? name with
    | none => rw [violationsAt_of_get?_eq_none was, violationsAt_of_get?_eq_none was]
    | some before =>
      apply violationsAt_congr _ rfl
      rw [gone]
      exact hgrows.not_added name before was gone
  rw [filter_contract_violations, filter_contract_violations, hat]

/-- Against a lesser baseline nothing is reported at a new place. -/
theorem exists_reports_of_within (counts : policy.removals = .requireBump)
    (hwithin : baseline'.Within baseline)
    (h : ∃ change, Reports current baseline' policy name key change) :
    ∃ change, Reports current baseline policy name key change := by
  rw [exists_reports_iff counts] at h ⊢
  obtain ⟨before', now, old, was', is, version, held, hnot⟩ := h
  obtain ⟨before, was, hcontract⟩ := hwithin name before' was'
  refine ⟨before, now, old, was, is, ?_, hcontract.kept key old held, hnot⟩
  rw [hcontract.version_eq]
  exact version

end

/-- **Additions are safe.** If removals count, and a snapshot grows by members and by contracts that
the baseline does not have, then no member is reported that was not reported before, what was
reported as modified is modified still if it is reported at all, and what is said of contracts that
are gone stays as it was. And no member is reported that was not reported before if the contracts of
the baseline lose members. -/
theorem additions_safe {current current' baseline : Snapshot} {policy : Policy}
    (counts : policy.removals = .requireBump) (hgrows : current.GrowsBeside baseline current') :
    (∀ name key, (∃ change, Reports current' baseline policy name key change) →
      ∃ change, Reports current baseline policy name key change) ∧
    (∀ name key old new, Reports current baseline policy name key (.modified old new) →
      ∀ change', Reports current' baseline policy name key change' →
        ∃ new', change' = .modified old new') ∧
    (∀ name, current.get? name = none →
      (compare current' baseline policy).violations.filter (·.contract = name) =
        (compare current baseline policy).violations.filter (·.contract = name)) ∧
    ∀ baseline' : Snapshot, baseline'.Within baseline → ∀ name key,
      (∃ change, Reports current baseline' policy name key change) →
        ∃ change, Reports current baseline policy name key change :=
  ⟨fun _ _ => exists_reports_of_growsBeside counts hgrows,
    fun _ _ _ _ h _ h' => h.stays_modified hgrows h',
    fun _ gone => filter_violations_of_gone hgrows gone,
    fun _ hwithin _ _ => exists_reports_of_within counts hwithin⟩

/-- A shop with functions by their declarations and signatures. -/
def shopContract (functions : List (String × String)) : Contract :=
  (Contract.new ⟨"contracts/Shop.sol"⟩ 1).insertAll .signature
    (functions.map fun f => .declared .function f.1 f.2)

/-- One function has a successor and another one is removed; what is added comes before the
successor, and takes the place of what was removed. -/
theorem additions_safe_shop :
    let baseline : Snapshot := ⟨.ofList [("Bank", shopContract []),
      ("Shop", shopContract [("buy(uint256)", "0x1"), ("sell()", "0x2")])]⟩
    let current : Snapshot := ⟨.ofList [("Shop", shopContract [("buy(address)", "0x3")])]⟩
    let current' : Snapshot := ⟨.ofList [("Kiosk", shopContract []),
      ("Shop", shopContract [("buy()", "0x4"), ("buy(address)", "0x3"), ("sell(bool)", "0x5")])]⟩
    current.GrowsBeside baseline current' ∧
    (∀ name key, (∃ change, Reports current' baseline {} name key change) →
      ∃ change, Reports current baseline {} name key change) ∧
    (∀ name key old new, Reports current baseline {} name key (.modified old new) →
      ∀ change', Reports current' baseline {} name key change' →
        ∃ new', change' = .modified old new') ∧
    (∀ name, current.get? name = none →
      (compare current' baseline {}).violations.filter (·.contract = name) =
        (compare current baseline {}).violations.filter (·.contract = name)) ∧
    ∀ baseline' : Snapshot, baseline'.Within baseline → ∀ name key,
      (∃ change, Reports current baseline' {} name key change) →
        ∃ change, Reports current baseline {} name key change := by
  intro baseline current current'
  have hgrows : current.GrowsBeside baseline current' := by decide +kernel
  exact ⟨hgrows, additions_safe rfl hgrows⟩

/-- If removals are let through, an addition can turn a removal into a violation. -/
example :
    let baseline : Snapshot := ⟨.ofList [("Shop", shopContract [("sell()", "0x2")])]⟩
    let current : Snapshot := ⟨.ofList [("Shop", shopContract [])]⟩
    let current' : Snapshot := ⟨.ofList [("Shop", shopContract [("sell(bool)", "0x5")])]⟩
    current.GrowsBeside baseline current' ∧
      (compare current baseline ⟨.exempt⟩).isClean = true ∧
      (compare current' baseline ⟨.exempt⟩).isClean = false := by
  decide +kernel

end AbiGate
