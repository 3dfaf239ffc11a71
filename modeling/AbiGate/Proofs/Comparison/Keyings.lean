/-
# Keyings that find the same

A changed member is found on two ways. Under the keying by name its key is still there and holds
something else; under the keying by declaration its key is gone and a successor is looked for. If
nothing is overloaded, and no name is a function on one side and an event on the other, both ways
lead to the same change: the member of that name, if there is one, is the only candidate, and its
key is new. What has become of a member can then be said by names alone (`Fate`), and a comparison
does not depend on the keying at all.

Key definitions: `Fate`, `Alike`.
Key theorems: `became_contract_iff`, `changes_contract_perm`, `compare_snapshot_eq`.
-/
import AbiGate.Proofs.Abi.Outline
import AbiGate.Proofs.Comparison.Order
import Mathlib.Data.List.Perm.Basic

namespace AbiGate

attribute [ext] Comparison

/-- What has become of a member, said by names alone. -/
inductive Fate (now : Outline) (policy : Policy) (old : Identifier) : Change → Prop where
  /-- A member of the name is there, and is not what it was. -/
  | modified {new : Identifier} (there : new ∈ now.members) (name_eq : new.name = old.name)
      (hne : new ≠ old) : Fate now policy old (.modified old new)
  /-- No member of the name is there, and removals count. -/
  | removed (gone : ∀ i ∈ now.members, i.name ≠ old.name)
      (counts : policy.removals = .requireBump) : Fate now policy old (.removed old)

/-- Nothing is overloaded in two outlines of a contract, and members of one name are of one kind. -/
structure Alike (now before : Outline) : Prop where
  now_plain : now.Plain
  before_plain : before.Plain
  kind_eq : ∀ i ∈ now.members, ∀ j ∈ before.members, i.name = j.name → i.kind = j.kind

namespace Alike

variable {now before : Outline} {old : Identifier} {keying : Keying} (h : Alike now before)
  (hold : old ∈ before.members)

include h hold

/-- Once the key of a member is gone, the members of its name are all candidates for its place, and
there are no others. -/
theorem candidate_iff (gone : (now.contract keying).identifiers.get? (old.key keying) = none)
    {key : String} {i : Identifier} :
    Candidate (now.contract keying) (before.contract keying) old key i ↔
      i ∈ now.members ∧ i.key keying = key ∧ i.name = old.name := by
  constructor
  · intro hc
    obtain ⟨hi, hkey⟩ := (Outline.get?_contract_eq_some_iff h.now_plain).1 hc.held
    exact ⟨hi, hkey, hc.name_eq⟩
  · rintro ⟨hi, rfl, hname⟩
    refine ⟨(Outline.get?_contract_eq_some_iff h.now_plain).2 ⟨hi, rfl⟩, hname,
      h.kind_eq i hi old hold hname, ?_⟩
    rw [Option.eq_none_iff_forall_ne_some]
    intro j hheld
    -- what the baseline holds under this key has the name, too, so it is the old member itself
    obtain ⟨hj, hkey⟩ := (Outline.get?_contract_eq_some_iff h.before_plain).1 hheld
    have hsame : j.name = old.name := (Outline.name_eq_of_key_eq hj hi hkey).trans hname
    obtain rfl := h.before_plain j hj old hold hsame
    have hthere : (now.contract keying).identifiers.get? (j.key keying) = some i :=
      (Outline.get?_contract_eq_some_iff h.now_plain).2 ⟨hi, hkey.symm⟩
    rw [gone] at hthere
    cases hthere

/-- **What has become of a member can be said by names alone,** under either keying. -/
theorem became_contract_iff {policy : Policy} {change : Change} :
    Became (now.contract keying) (before.contract keying) policy (old.key keying) old change ↔
      Fate now policy old change := by
  have hget : ∀ {key i}, (now.contract keying).identifiers.get? key = some i ↔
      i ∈ now.members ∧ i.key keying = key :=
    Outline.get?_contract_eq_some_iff h.now_plain
  constructor
  · intro hb
    cases hb with
    | replaced held hne =>
      obtain ⟨hnew, hkey⟩ := hget.1 held
      exact .modified hnew (Outline.name_eq_of_key_eq hnew hold hkey) hne
    | succeeded gone next =>
      obtain ⟨key, hc, -⟩ := next
      obtain ⟨hnew, -, hname⟩ := (h.candidate_iff hold gone).1 hc
      refine .modified hnew hname ?_
      rintro rfl
      rw [hget.2 ⟨hnew, rfl⟩] at gone
      cases gone
    | removed gone none counts =>
      refine .removed (fun i hi hname => ?_) counts
      exact none _ i ((h.candidate_iff hold gone).2 ⟨hi, rfl, hname⟩)
  · intro hf
    cases hf with
    | @modified new hnew hname hne =>
      -- the member of the name is the only one, under the old key or under a new one
      have honly : ∀ i ∈ now.members, i.name = old.name → i = new := fun i hi hi' =>
        h.now_plain i hi new hnew (hi'.trans hname.symm)
      cases held : (now.contract keying).identifiers.get? (old.key keying) with
      | some i =>
        obtain ⟨hi, hkey⟩ := hget.1 held
        obtain rfl := honly i hi (Outline.name_eq_of_key_eq hi hold hkey)
        exact .replaced held hne
      | none =>
        refine .succeeded held ⟨_, (h.candidate_iff hold held).2 ⟨hnew, rfl, hname⟩, ?_⟩
        intro key i hc
        obtain ⟨hi, rfl, hi'⟩ := (h.candidate_iff hold held).1 hc
        obtain rfl := honly i hi hi'
        exact String.le_refl _
    | removed gone counts =>
      have hnone : (now.contract keying).identifiers.get? (old.key keying) = none := by
        rw [Option.eq_none_iff_forall_ne_some]
        intro i held
        obtain ⟨hi, hkey⟩ := hget.1 held
        exact gone i hi (Outline.name_eq_of_key_eq hi hold hkey)
      refine .removed hnone (fun key i hc => ?_) counts
      obtain ⟨hi, -, hname⟩ := (h.candidate_iff hold hnone).1 hc
      exact gone i hi hname

theorem changeOf?_contract_eq (policy : Policy) (keying keying' : Keying) :
    changeOf? (now.contract keying) (before.contract keying) policy (old.key keying) old =
      changeOf? (now.contract keying') (before.contract keying') policy (old.key keying') old := by
  ext change
  rw [changeOf?_eq_some_iff, changeOf?_eq_some_iff, h.became_contract_iff hold,
    h.became_contract_iff hold]

end Alike

/-! ### Two contracts -/

/-- Either keying makes the same changes, but for their order. -/
theorem changes_contract_perm {now before : Outline} (h : Alike now before) (policy : Policy)
    (keying keying' : Keying) :
    (changes (now.contract keying) (before.contract keying) policy).Perm
      (changes (now.contract keying') (before.contract keying') policy) := by
  have hlist : ∀ keying, (changes (now.contract keying) (before.contract keying) policy).Perm
      (before.members.dedup.filterMap fun i =>
        changeOf? (now.contract keying) (before.contract keying) policy (i.key keying) i) := by
    intro keying
    have hperm := (Outline.toList_contract_perm h.before_plain keying).filterMap fun e =>
      changeOf? (now.contract keying) (before.contract keying) policy e.1 e.2
    rwa [List.filterMap_map] at hperm
  have hsame : before.members.dedup.filterMap (fun i =>
        changeOf? (now.contract keying) (before.contract keying) policy (i.key keying) i) =
      before.members.dedup.filterMap fun i =>
        changeOf? (now.contract keying') (before.contract keying') policy (i.key keying') i :=
    List.filterMap_congr fun i hi =>
      h.changeOf?_contract_eq (List.mem_dedup.1 hi) policy keying keying'
  exact ((hlist keying).trans (.of_eq hsame)).trans (hlist keying').symm

theorem size_contract {o : Outline} (h : o.Plain) (keying : Keying) :
    (o.contract keying).identifiers.size = o.members.dedup.length := by
  rw [SortedMap.size, (Outline.toList_contract_perm h keying).length_eq, List.length_map]

/-- Either keying makes the same violations of a contract, but for their order. -/
theorem violationsOf_contract_perm {current : Outlines} {name : String} {before : Outline}
    (hbefore : before.Plain) (halike : ∀ now, current.get? name = some now → Alike now before)
    (policy : Policy) (keying keying' : Keying) :
    (violationsOf (current.snapshot keying) policy name (before.contract keying)).Perm
      (violationsOf (current.snapshot keying') policy name (before.contract keying')) := by
  cases is : current.get? name with
  | none =>
    have hgone : goneViolation name (before.contract keying) =
        goneViolation name (before.contract keying') := by
      simp [goneViolation, size_contract hbefore]
    simp only [violationsOf, Outlines.get?_snapshot, is, Option.map_none, hgone]
    exact .refl _
  | some now =>
    have his : ∀ keying, (current.snapshot keying).get? name = some (now.contract keying) :=
      fun keying => by rw [Outlines.get?_snapshot, is]; rfl
    have hchanged : changedViolation name (now.contract keying) (before.contract keying) =
        changedViolation name (now.contract keying') (before.contract keying') := by
      funext change
      simp [changedViolation]
    rw [violationsOf_of_get? (his keying), violationsOf_of_get? (his keying')]
    simp only [Outline.contract_version, hchanged]
    split
    · exact .refl _
    · exact (changes_contract_perm (halike now is) policy keying keying').map _

/-! ### Two snapshots -/

theorem keyed_of_get?_snapshot {s : Outlines} (keying : Keying) :
    ∀ name c, (s.snapshot keying).get? name = some c → ∃ keying', c.Keyed keying' := by
  intro name c hc
  rw [Outlines.get?_snapshot] at hc
  obtain ⟨o, -, rfl⟩ := Option.map_eq_some_iff.1 hc
  exact ⟨keying, Contract.keyed_insertAll keying o.path o.version o.members⟩

/-- **A comparison does not depend on the keying, if nothing is overloaded:** no bare name stands
for two members of a contract, and none for a function on one side and an event on the other. -/
theorem compare_snapshot_eq {current baseline : Outlines}
    (hcurrent : ∀ name now, current.get? name = some now → now.Plain)
    (hbaseline : ∀ name before, baseline.get? name = some before → before.Plain)
    (hkinds : ∀ name now before, current.get? name = some now →
      baseline.get? name = some before →
      ∀ i ∈ now.members, ∀ j ∈ before.members, i.name = j.name → i.kind = j.kind)
    (policy : Policy) :
    compare (current.snapshot .name) (baseline.snapshot .name) policy =
      compare (current.snapshot .signature) (baseline.snapshot .signature) policy := by
  have hperm : (compare (current.snapshot .name) (baseline.snapshot .name) policy).violations.Perm
      (compare (current.snapshot .signature) (baseline.snapshot .signature) policy).violations := by
    unfold compare
    refine (List.mergeSort_perm _ _).trans (.trans ?_ (List.mergeSort_perm _ _).symm)
    rw [Outlines.toList_snapshot, Outlines.toList_snapshot, List.flatMap_map, List.flatMap_map]
    refine List.Perm.flatMap_left _ fun e he => ?_
    have was : baseline.get? e.1 = some e.2 := SortedMap.get?_eq_some_iff.2 he
    exact violationsOf_contract_perm (hbaseline _ _ was)
      (fun now is => ⟨hcurrent _ _ is, hbaseline _ _ was, hkinds _ _ _ is was⟩) policy _ _
  have hviolations := violations_eq_of_perm (keyed_of_get?_snapshot .name)
    (keyed_of_get?_snapshot .signature) hperm
  have hcompared : (compare (current.snapshot .name) (baseline.snapshot .name) policy).compared =
      (compare (current.snapshot .signature) (baseline.snapshot .signature) policy).compared := by
    simp [compare, funext (Outlines.contains_snapshot current .name),
      funext (Outlines.contains_snapshot current .signature)]
  have hadded : (compare (current.snapshot .name) (baseline.snapshot .name) policy).added =
      (compare (current.snapshot .signature) (baseline.snapshot .signature) policy).added := by
    simp [compare]
  exact Comparison.ext hviolations hcompared hadded

/-- A contract in which the name of one function starts with the name of another one. -/
def kioskOutlines (rows : List (EntryKind × String × String)) : Outlines :=
  .ofList [("Kiosk", .ofRows ⟨"contracts/Kiosk.sol"⟩ 1 rows)]

/-- The keys come in the order `pay$`, `pay` under one keying, and the other way round under the
other; one function is changed, and one is gone. -/
theorem compare_snapshot_kiosk :
    let current := kioskOutlines [(.event, "Paid(uint256)", "0x3"),
      (.function, "pay(uint256)", "0x2")]
    let baseline := kioskOutlines [(.function, "pay$()", "0x4"), (.function, "pay()", "0x1"),
      (.event, "Paid(uint256)", "0x3")]
    (∀ name now, current.get? name = some now → now.Plain) ∧
      (∀ name before, baseline.get? name = some before → before.Plain) ∧
      (∀ name now before, current.get? name = some now → baseline.get? name = some before →
        ∀ i ∈ now.members, ∀ j ∈ before.members, i.name = j.name → i.kind = j.kind) ∧
      compare (current.snapshot .name) (baseline.snapshot .name) {} =
        compare (current.snapshot .signature) (baseline.snapshot .signature) {} := by
  intro current baseline
  have hentries : (∀ e ∈ current.toList, e.2.Plain) ∧ (∀ e ∈ baseline.toList, e.2.Plain) ∧
      ∀ e ∈ current.toList, ∀ before ∈ baseline.get? e.1,
        ∀ i ∈ e.2.members, ∀ j ∈ before.members, i.name = j.name → i.kind = j.kind := by
    decide +kernel
  have hcurrent : ∀ name now, current.get? name = some now → now.Plain :=
    SortedMap.forall_get?_iff.2 hentries.1
  have hbaseline : ∀ name before, baseline.get? name = some before → before.Plain :=
    SortedMap.forall_get?_iff.2 hentries.2.1
  have hkinds : ∀ name now before, current.get? name = some now →
      baseline.get? name = some before →
      ∀ i ∈ now.members, ∀ j ∈ before.members, i.name = j.name → i.kind = j.kind :=
    fun name now before is was => SortedMap.forall_get?_iff.2 hentries.2.2 name now is before was
  exact ⟨hcurrent, hbaseline, hkinds, compare_snapshot_eq hcurrent hbaseline hkinds {}⟩

end AbiGate
