/-
# What a comparison finds

A comparison can find something at two kinds of places: at a contract of the baseline, and at a
member that a contract of the baseline shows. `Finding` says what is found where, without a word
on how one looks for it: a contract that is gone, and a member that is not held as it was although
the contract has no greater version. The member that has taken another one's place is told by the
least of the keys that could be meant (`Successor`), and not by a search.

A comparison reports the findings, each once, and nothing else. That equal surfaces are not looked
at any further leaves nothing out.

Key definitions: `Place`, `Candidate`, `Successor`, `Became`, `Finding`.
Key theorems: `successor?_eq_some_iff`, `changeOf?_eq_some_iff`, `changes_eq_nil_iff`,
`isClean_iff`, `violations_perm_findings`.
-/
import AbiGate.Comparison.Compare
import Mathlib.Data.List.Nodup

namespace AbiGate

/-- Where a comparison can find something. -/
inductive Place where
  /-- At a contract of the baseline. -/
  | contract (name : String)
  /-- At the member that a contract of the baseline has under a key. -/
  | member (name key : String)
  deriving DecidableEq, Repr

/-- What a contract holds under a key can have taken the place of an old member: it is of the
same kind and name, and the key is new. -/
structure Candidate (now before : Contract) (old : Identifier) (key : String) (i : Identifier) :
    Prop where
  held : now.identifiers.get? key = some i
  name_eq : i.name = old.name
  kind_eq : i.kind = old.kind
  fresh : before.identifiers.get? key = none

/-- The candidate with the least key. -/
def Successor (now before : Contract) (old new : Identifier) : Prop :=
  ∃ key, Candidate now before old key new ∧
    ∀ key' i, Candidate now before old key' i → key ≤ key'

/-- What has become of the member that was held under a key, if that needs a new version. -/
inductive Became (now before : Contract) (policy : Policy) (key : String) (old : Identifier) :
    Change → Prop where
  /-- The key holds something else. -/
  | replaced {new : Identifier} (held : now.identifiers.get? key = some new) (hne : new ≠ old) :
      Became now before policy key old (.modified old new)
  /-- The key is gone, and another member has taken the place. -/
  | succeeded {new : Identifier} (gone : now.identifiers.get? key = none)
      (next : Successor now before old new) : Became now before policy key old (.modified old new)
  /-- The key is gone, nothing has taken the place, and removals count. -/
  | removed (gone : now.identifiers.get? key = none)
      (none : ∀ key' i, ¬Candidate now before old key' i)
      (counts : policy.removals = .requireBump) : Became now before policy key old (.removed old)

/-- What is to be reported at a place. -/
inductive Finding (current baseline : Snapshot) (policy : Policy) : Place → Violation → Prop where
  /-- A contract is gone, and removals count. -/
  | gone {name : String} {before : Contract} (was : baseline.get? name = some before)
      (gone : current.get? name = none) (counts : policy.removals = .requireBump) :
      Finding current baseline policy (.contract name)
        { contract := name
          path := before.path
          currentVersion := none
          baselineVersion := before.version
          suggestedVersion := nextVersion before.version
          change := .contractRemoved before.identifiers.size }
  /-- A contract has no greater version, and a member is not what it was. -/
  | changed {name key : String} {before now : Contract} {old : Identifier} {change : Change}
      (was : baseline.get? name = some before) (is : current.get? name = some now)
      (version : now.version ≤ before.version) (held : before.identifiers.get? key = some old)
      (became : Became now before policy key old change) :
      Finding current baseline policy (.member name key)
        { contract := name
          path := now.path
          currentVersion := some now.version
          baselineVersion := before.version
          suggestedVersion := nextVersion before.version
          change }

/-! ### One member -/

theorem candidate_iff {now before : Contract} {old : Identifier} {e : String × Identifier} :
    Candidate now before old e.1 e.2 ↔ e ∈ now.identifiers.toList ∧
      (e.2.name = old.name && e.2.kind = old.kind && !before.identifiers.contains e.1) = true := by
  rw [← SortedMap.get?_eq_some_iff (k := e.1) (v := e.2)]
  simp only [Bool.and_eq_true, decide_eq_true_eq, Bool.not_eq_true', SortedMap.not_contains_iff]
  exact ⟨fun h => ⟨h.held, ⟨h.name_eq, h.kind_eq⟩, h.fresh⟩,
    fun ⟨h, ⟨hn, hk⟩, hf⟩ => ⟨h, hn, hk, hf⟩⟩

/-- The search in key order finds the candidate with the least key. -/
theorem successor?_eq_some_iff {now before : Contract} {old new : Identifier} :
    successor? now before old = some new ↔ Successor now before old new := by
  unfold successor? Successor
  rw [Option.map_eq_some_iff]
  constructor
  · intro h
    obtain ⟨e, he, rfl⟩ := h
    obtain ⟨hm, hp, hleast⟩ := SortedMap.find?_eq_some_iff.1 he
    refine ⟨e.1, candidate_iff.2 ⟨hm, hp⟩, fun key' i hc => String.not_lt.1 ?_⟩
    obtain ⟨hm', hp'⟩ := candidate_iff (e := (key', i)).1 hc
    exact hleast (key', i) hm' hp'
  · intro h
    obtain ⟨key, hc, hleast⟩ := h
    obtain ⟨hm, hp⟩ := candidate_iff (e := (key, new)).1 hc
    refine ⟨(key, new), SortedMap.find?_eq_some_iff.2 ⟨hm, hp, fun e' hm' hp' => ?_⟩, rfl⟩
    exact String.not_lt.2 (hleast e'.1 e'.2 (candidate_iff.2 ⟨hm', hp'⟩))

theorem successor?_eq_none_iff {now before : Contract} {old : Identifier} :
    successor? now before old = none ↔ ∀ key i, ¬Candidate now before old key i := by
  unfold successor?
  rw [Option.map_eq_none_iff, List.find?_eq_none]
  constructor
  · intro h key i hc
    obtain ⟨hm, hp⟩ := candidate_iff (e := (key, i)).1 hc
    exact h (key, i) hm hp
  · intro h e hm hp
    exact h e.1 e.2 (candidate_iff.2 ⟨hm, hp⟩)

theorem Became.changeOf?_eq {now before : Contract} {policy : Policy} {key : String}
    {old : Identifier} {change : Change} (h : Became now before policy key old change) :
    changeOf? now before policy key old = some change := by
  unfold changeOf?
  cases h with
  | replaced held hne =>
    rw [held]
    exact if_neg hne
  | succeeded free next => rw [free, successor?_eq_some_iff.2 next]
  | removed free none counts => rw [free, successor?_eq_none_iff.2 none, counts]

theorem became_of_changeOf?_eq {now before : Contract} {policy : Policy} {key : String}
    {old : Identifier} {change : Change} (h : changeOf? now before policy key old = some change) :
    Became now before policy key old change := by
  unfold changeOf? at h
  split at h
  · next new held =>
    by_cases hne : new = old
    · rw [if_pos hne] at h
      cases h
    · rw [if_neg hne] at h
      cases h
      exact .replaced held hne
  · next free =>
    split at h
    · next new hnext =>
      cases h
      exact .succeeded free (successor?_eq_some_iff.1 hnext)
    · next hnone =>
      split at h
      · next counts =>
        cases h
        exact .removed free (successor?_eq_none_iff.1 hnone) counts
      · cases h

theorem changeOf?_eq_some_iff {now before : Contract} {policy : Policy} {key : String}
    {old : Identifier} {change : Change} :
    changeOf? now before policy key old = some change ↔
      Became now before policy key old change :=
  ⟨became_of_changeOf?_eq, Became.changeOf?_eq⟩

/-! ### One contract -/

/-- Equal surfaces hold no change, so a comparison may pass them over. -/
theorem changes_eq_nil_of_sameSurface {now before : Contract} (policy : Policy)
    (h : now.sameSurface before = true) : changes now before policy = [] := by
  have heq : now.identifiers = before.identifiers := by simpa [Contract.sameSurface] using h
  unfold changes
  rw [List.filterMap_eq_nil_iff]
  intro e he
  have hg : now.identifiers.get? e.1 = some e.2 := heq ▸ SortedMap.get?_eq_some_iff.2 he
  simp [changeOf?, hg]

/-- If removals count, nothing has changed exactly if all is held as it was. -/
theorem changes_eq_nil_iff {now before : Contract} {policy : Policy}
    (hp : policy.removals = .requireBump) :
    changes now before policy = [] ↔ ∀ key old, before.identifiers.get? key = some old →
      now.identifiers.get? key = some old := by
  unfold changes
  rw [List.filterMap_eq_nil_iff]
  constructor
  · intro h key old hold
    have hnone := h (key, old) (SortedMap.get?_eq_some_iff.1 hold)
    unfold changeOf? at hnone
    cases hg : now.identifiers.get? key with
    | some new =>
      by_cases hne : new = old
      · rw [hne]
      · simp [hg, hne] at hnone
    | none => cases hs : successor? now before old <;> simp [hg, hs, hp] at hnone
  · intro h e he
    have hg := h e.1 e.2 (SortedMap.get?_eq_some_iff.2 he)
    simp [changeOf?, hg]

/-- What a comparison finds in a contract of the baseline, at its places. -/
def findingsOf (current : Snapshot) (policy : Policy) (name : String) (before : Contract) :
    List (Place × Violation) :=
  match current.get? name with
  | none =>
    match policy.removals with
    | .requireBump => [(.contract name, goneViolation name before)]
    | .exempt => []
  | some now =>
    if now.version > before.version then []
    else before.identifiers.toList.filterMap fun e =>
      (changeOf? now before policy e.1 e.2).map fun change =>
        (.member name e.1, changedViolation name now before change)

/-- A contract that is there violates by its changes, unless it has a greater version. -/
theorem violationsOf_of_get? {current : Snapshot} {policy : Policy} {name : String}
    {before now : Contract} (is : current.get? name = some now) :
    violationsOf current policy name before =
      if now.version > before.version then []
      else (changes now before policy).map (changedViolation name now before) := by
  unfold violationsOf
  rw [is]
  by_cases hv : now.version > before.version
  · simp [hv]
  · by_cases hs : now.sameSurface before = true
    · simp [hs, changes_eq_nil_of_sameSurface policy hs]
    · simp [hv, hs]

/-- The violations of a contract are its findings without their places. -/
theorem map_snd_findingsOf (current : Snapshot) (policy : Policy) (name : String)
    (before : Contract) :
    (findingsOf current policy name before).map (·.2) =
      violationsOf current policy name before := by
  cases is : current.get? name with
  | none =>
    unfold findingsOf violationsOf
    rw [is]
    cases policy.removals <;> rfl
  | some now =>
    unfold findingsOf
    rw [violationsOf_of_get? is, is]
    by_cases hv : now.version > before.version
    · simp [hv]
    · simp [hv, changes, List.map_filterMap, Function.comp_def]

/-- The contract that a place is at. -/
def Place.name : Place → String
  | contract name => name
  | member name _ => name

theorem name_of_mem_findingsOf {current : Snapshot} {policy : Policy} {name : String}
    {before : Contract} {f : Place × Violation}
    (h : f ∈ findingsOf current policy name before) : f.1.name = name := by
  unfold findingsOf at h
  split at h
  · split at h
    · rw [List.mem_singleton.1 h]; rfl
    · cases h
  · split at h
    · cases h
    · obtain ⟨e, -, he⟩ := List.mem_filterMap.1 h
      obtain ⟨change, -, rfl⟩ := Option.map_eq_some_iff.1 he
      rfl

/-- What is found in a contract is to be reported. -/
theorem finding_of_mem_findingsOf {current baseline : Snapshot} {policy : Policy} {name : String}
    {before : Contract} (was : baseline.get? name = some before) {place : Place} {v : Violation}
    (h : (place, v) ∈ findingsOf current policy name before) :
    Finding current baseline policy place v := by
  unfold findingsOf at h
  split at h
  · next gone =>
    split at h
    · next counts =>
      obtain ⟨rfl, rfl⟩ := Prod.mk.inj (List.mem_singleton.1 h)
      exact .gone was gone counts
    · cases h
  · next now is =>
    split at h
    · cases h
    · next version =>
      obtain ⟨e, he, hf⟩ := List.mem_filterMap.1 h
      obtain ⟨change, hc, heq⟩ := Option.map_eq_some_iff.1 hf
      obtain ⟨rfl, rfl⟩ := Prod.mk.inj heq
      exact .changed was is (UInt64.not_lt.1 version) (SortedMap.get?_eq_some_iff.2 he)
        (changeOf?_eq_some_iff.1 hc)

/-- What is to be reported is found in a contract. -/
theorem Finding.mem_findingsOf {current baseline : Snapshot} {policy : Policy} {place : Place}
    {v : Violation} (h : Finding current baseline policy place v) :
    ∃ before, baseline.get? place.name = some before ∧
      (place, v) ∈ findingsOf current policy place.name before := by
  cases h with
  | @gone name before was gone counts =>
    refine ⟨before, was, ?_⟩
    show _ ∈ findingsOf current policy name before
    unfold findingsOf
    rw [gone, counts]
    exact List.mem_singleton.2 rfl
  | @changed name key before now old change was is version held became =>
    refine ⟨before, was, ?_⟩
    show _ ∈ findingsOf current policy name before
    unfold findingsOf
    rw [is]
    have hnot : ¬now.version > before.version := UInt64.not_lt.2 version
    simp only [hnot, ↓reduceIte]
    refine List.mem_filterMap.2 ⟨(key, old), SortedMap.get?_eq_some_iff.1 held, ?_⟩
    rw [changeOf?_eq_some_iff.2 became]
    rfl

/-! ### All contracts -/

/-- Something is found at a place of a contract once at most. -/
theorem nodup_findingsOf (current : Snapshot) (policy : Policy) (name : String)
    (before : Contract) : ((findingsOf current policy name before).map (·.1)).Nodup := by
  unfold findingsOf
  split
  · split <;> simp
  · next now is =>
    split
    · simp
    · refine List.pairwise_map.2 (List.pairwise_filterMap.2 ?_)
      refine before.identifiers.sorted.imp fun {e e'} hlt f hf f' hf' heq => ?_
      obtain ⟨change, -, rfl⟩ := Option.map_eq_some_iff.1 hf
      obtain ⟨change', -, rfl⟩ := Option.map_eq_some_iff.1 hf'
      have hkey : e.1 = e'.1 := (Place.member.inj heq).2
      exact StrictTotal.irrefl _ (hkey ▸ hlt)

/-- What a comparison finds, at its places. -/
def findings (current baseline : Snapshot) (policy : Policy) : List (Place × Violation) :=
  baseline.toList.flatMap fun e => findingsOf current policy e.1 e.2

theorem mem_findings {current baseline : Snapshot} {policy : Policy} {place : Place}
    {v : Violation} :
    (place, v) ∈ findings current baseline policy ↔
      Finding current baseline policy place v := by
  unfold findings
  rw [List.mem_flatMap]
  constructor
  · intro h
    obtain ⟨e, he, hf⟩ := h
    exact finding_of_mem_findingsOf (SortedMap.get?_eq_some_iff.2 he) hf
  · intro hf
    obtain ⟨before, was, hmem⟩ := hf.mem_findingsOf
    exact ⟨(place.name, before), SortedMap.get?_eq_some_iff.1 was, hmem⟩

/-- Something is found at a place once at most. -/
theorem nodup_findings (current baseline : Snapshot) (policy : Policy) :
    ((findings current baseline policy).map (·.1)).Nodup := by
  unfold findings
  rw [List.map_flatMap]
  refine List.nodup_flatMap.2 ⟨fun e _ => nodup_findingsOf current policy e.1 e.2, ?_⟩
  refine baseline.contracts.sorted.imp fun {e e'} hlt place hp hp' => ?_
  obtain ⟨f, hf, rfl⟩ := List.mem_map.1 hp
  obtain ⟨f', hf', heq⟩ := List.mem_map.1 hp'
  have hname : e.1 = e'.1 := by
    rw [← name_of_mem_findingsOf hf, ← name_of_mem_findingsOf hf', heq]
  exact StrictTotal.irrefl _ (hname ▸ hlt)

/-- A comparison sorts what it finds. -/
theorem violations_perm_map_findings (current baseline : Snapshot) (policy : Policy) :
    (compare current baseline policy).violations.Perm
      ((findings current baseline policy).map (·.2)) := by
  have hlist : (findings current baseline policy).map (·.2) =
      baseline.toList.flatMap fun e => violationsOf current policy e.1 e.2 := by
    unfold findings
    rw [List.map_flatMap]
    simp only [map_snd_findingsOf]
  rw [hlist]
  exact List.mergeSort_perm _ _

/-- A comparison reports what is to be reported at some place. -/
theorem mem_violations_iff_finding {current baseline : Snapshot} {policy : Policy}
    {v : Violation} : v ∈ (compare current baseline policy).violations ↔
      ∃ place, Finding current baseline policy place v := by
  rw [(violations_perm_map_findings current baseline policy).mem_iff, List.mem_map]
  constructor
  · rintro ⟨⟨place, v⟩, hmem, rfl⟩
    exact ⟨place, mem_findings.1 hmem⟩
  · rintro ⟨place, hfinding⟩
    exact ⟨(place, v), mem_findings.2 hfinding, rfl⟩

theorem contract_of_mem_violationsOf {current : Snapshot} {policy : Policy} {name : String}
    {before : Contract} {v : Violation} (h : v ∈ violationsOf current policy name before) :
    v.contract = name := by
  unfold violationsOf at h
  split at h
  · split at h
    · rw [List.mem_singleton.1 h]; rfl
    · cases h
  · split at h
    · cases h
    · obtain ⟨change, -, rfl⟩ := List.mem_map.1 h
      rfl

/-- The violations of a contract are those that it has by itself. -/
theorem mem_violations {current baseline : Snapshot} {policy : Policy} {v : Violation} :
    v ∈ (compare current baseline policy).violations ↔
      ∃ before, baseline.get? v.contract = some before ∧
        v ∈ violationsOf current policy v.contract before := by
  unfold compare
  rw [List.mem_mergeSort, List.mem_flatMap]
  constructor
  · rintro ⟨⟨name, before⟩, he, hv⟩
    obtain rfl : v.contract = name := contract_of_mem_violationsOf hv
    exact ⟨before, SortedMap.get?_eq_some_iff.2 he, hv⟩
  · rintro ⟨before, was, hv⟩
    exact ⟨(v.contract, before), SortedMap.get?_eq_some_iff.1 was, hv⟩

/-! ### A clean comparison -/

theorem violationsOf_eq_nil_iff {current : Snapshot} {policy : Policy} {name : String}
    {before : Contract} (hp : policy.removals = .requireBump) :
    violationsOf current policy name before = [] ↔
      ∃ now, current.get? name = some now ∧ (before.version < now.version ∨
        ∀ key old, before.identifiers.get? key = some old →
          now.identifiers.get? key = some old) := by
  cases is : current.get? name with
  | none => simp [violationsOf, is, hp]
  | some now =>
    rw [violationsOf_of_get? is]
    simp only [Option.some.injEq, exists_eq_left', ← changes_eq_nil_iff hp]
    by_cases hv : now.version > before.version <;> simp [hv]

/-- **If removals count, a comparison is clean exactly if each contract of the baseline is there
and has a greater version or holds all that it held.** -/
theorem isClean_iff {current baseline : Snapshot} {policy : Policy}
    (hp : policy.removals = .requireBump) :
    (compare current baseline policy).isClean = true ↔
      ∀ name before, baseline.get? name = some before →
        ∃ now, current.get? name = some now ∧ (before.version < now.version ∨
          ∀ key old, before.identifiers.get? key = some old →
            now.identifiers.get? key = some old) := by
  have hclean : (compare current baseline policy).isClean = true ↔
      ∀ e ∈ baseline.toList, violationsOf current policy e.1 e.2 = [] := by
    unfold Comparison.isClean compare
    rw [List.isEmpty_iff, ← List.length_eq_zero_iff, List.length_mergeSort,
      List.length_eq_zero_iff, List.flatMap_eq_nil_iff]
  rw [hclean]
  constructor
  · intro h name before was
    exact (violationsOf_eq_nil_iff hp).1 (h (name, before) (SortedMap.get?_eq_some_iff.1 was))
  · intro h e he
    exact (violationsOf_eq_nil_iff hp).2 (h e.1 e.2 (SortedMap.get?_eq_some_iff.2 he))

/-- **A comparison reports the findings, one for one, and nothing else.** The findings can be
listed with their places so that no place comes twice, and the violations are the findings of
that list. Where surfaces are equal, nothing is to be found. -/
theorem violations_perm_findings (current baseline : Snapshot) (policy : Policy) :
    (∃ found : List (Place × Violation),
      (found.map (·.1)).Nodup ∧
      (∀ place v, (place, v) ∈ found ↔ Finding current baseline policy place v) ∧
      (compare current baseline policy).violations.Perm (found.map (·.2))) ∧
    ∀ name before now, baseline.get? name = some before → current.get? name = some now →
      now.sameSurface before = true → ∀ key v,
        ¬Finding current baseline policy (.member name key) v := by
  refine ⟨⟨findings current baseline policy, nodup_findings current baseline policy,
    fun _ _ => mem_findings, violations_perm_map_findings current baseline policy⟩, ?_⟩
  intro name before now was is hsame key v hf
  cases hf with
  | @changed _ _ b n old change was' is' _ held became =>
    obtain rfl := Option.some.inj (was.symm.trans was')
    obtain rfl := Option.some.inj (is.symm.trans is')
    have hmem : change ∈ changes now before policy :=
      List.mem_filterMap.2 ⟨(key, old), SortedMap.get?_eq_some_iff.1 held,
        changeOf?_eq_some_iff.2 became⟩
    rw [changes_eq_nil_of_sameSurface policy hsame] at hmem
    cases hmem

end AbiGate
