/-
# What versions and paths do to a comparison

The version of a contract decides whether its changes are violations, and nothing else: all versions
up to the baseline's are alike, and so are all versions above it. Among the first a violation only
repeats the version that it was found at; above them the contract has no violations, and those of
the other contracts stay as they are. A path decides nothing. It is repeated in the violations of
its own contract: the current path if the contract is still there, the path of the baseline if it is
gone.

A change of a version or a path leaves the names of both snapshots alone, so the lists of contracts
stay; and it leaves the keys of violations alone, so their order stays.

Key definitions: `Snapshot.adjust`, `Snapshot.withPath`, `Comparison.revise`, `Comparison.without`.
Key theorems: `Violation.arrange_map`, `compare_eq_revise`, `compare_eq_without`,
`violationsAt_eq_map`, `compare_withVersion_withPath`.
-/
import AbiGate.Proofs.Comparison.Locality
import AbiGate.Proofs.Comparison.Versions

namespace AbiGate

/-! ### Adjusted snapshots -/

namespace Snapshot

/-- The snapshot with another contract for the one under a name, if there is one. -/
def adjust (s : Snapshot) (name : String) (f : Contract → Contract) : Snapshot :=
  match s.get? name with
  | some c => ⟨s.contracts.insert name (f c)⟩
  | none => s

/-- The snapshot with another path of a contract, and everything else as it is. -/
def withPath (s : Snapshot) (name : String) (path : Path) : Snapshot :=
  s.adjust name fun c => { c with path }

/-- Two snapshots have the same names, and hold the same under each of them but one. -/
structure Adjusted (name : String) (s s' : Snapshot) : Prop where
  off : s.AgreesOff name s'
  contains : ∀ other, s'.contains other = s.contains other

variable {s s' : Snapshot} {name : String} {f : Contract → Contract}

theorem get?_adjust (other : String) : (s.adjust name f).get? other =
    if other = name then (s.get? name).map f else s.get? other := by
  unfold adjust
  cases hc : s.get? name with
  | some c =>
    show SortedMap.get? _ other = _
    rw [SortedMap.get?_insert]
    rfl
  | none =>
    by_cases hother : other = name
    · rw [if_pos hother, hother, hc]
      rfl
    · rw [if_neg hother]

theorem get?_adjust_self : (s.adjust name f).get? name = (s.get? name).map f := by
  rw [get?_adjust, if_pos rfl]

namespace Adjusted

theorem refl (name : String) (s : Snapshot) : s.Adjusted name s :=
  ⟨fun _ _ => rfl, fun _ => rfl⟩

theorem adjust (s : Snapshot) (name : String) (f : Contract → Contract) :
    s.Adjusted name (s.adjust name f) := by
  constructor
  · intro other hother
    rw [get?_adjust, if_neg hother]
  · intro other
    show ((s.adjust name f).get? other).isSome = (s.get? other).isSome
    rw [get?_adjust]
    by_cases hother : other = name
    · rw [if_pos hother, hother, Option.isSome_map]
    · rw [if_neg hother]

theorem withVersion (s : Snapshot) (name : String) (version : UInt64) :
    s.Adjusted name (s.withVersion name version) :=
  adjust s name fun c => { c with version }

theorem withPath (s : Snapshot) (name : String) (path : Path) :
    s.Adjusted name (s.withPath name path) :=
  adjust s name fun c => { c with path }

theorem symm (h : s.Adjusted name s') : s'.Adjusted name s :=
  ⟨fun other hother => (h.off other hother).symm, fun other => (h.contains other).symm⟩

theorem trans {s'' : Snapshot} (h : s.Adjusted name s') (h' : s'.Adjusted name s'') :
    s.Adjusted name s'' :=
  ⟨fun other hother => (h'.off other hother).trans (h.off other hother),
    fun other => (h'.contains other).trans (h.contains other)⟩

/-- A snapshot with one version of a contract, and with another one. -/
theorem versions (s : Snapshot) (name : String) (v w : UInt64) :
    (s.withVersion name v).Adjusted name (s.withVersion name w) :=
  (withVersion s name v).symm.trans (withVersion s name w)

theorem names_eq (h : s.Adjusted name s') : s'.names = s.names := by
  have hperm : s'.names.Perm s.names := by
    rw [List.perm_ext_iff_of_nodup s'.nodup_names s.nodup_names]
    intro other
    rw [mem_names, mem_names, h.contains]
  refine List.Perm.eq_of_pairwise (fun a b _ _ hab hba => ?_) s'.pairwise_names s.pairwise_names
    hperm
  exact absurd hba (StrictTotal.asymm hab)

end Adjusted

end Snapshot

/-! ### Said in another way -/

/-- What is said can be changed before the sorting or behind it, if the keys stay. -/
theorem Violation.arrange_map {f : Violation → Violation} (hf : ∀ v, (f v).sortKey = v.sortKey)
    (l : List Violation) : arrange (l.map f) = (arrange l).map f := by
  have hordered : ((arrange l).map f).Pairwise fun v w => ¬w.sortKey < v.sortKey := by
    rw [List.pairwise_map]
    refine (pairwise_arrange l).imp fun {v w} hvw => ?_
    rw [hf, hf]
    exact hvw
  have hkeys : ∀ key, ((arrange l).map f).filter (·.sortKey = key) =
      (l.map f).filter (·.sortKey = key) := by
    intro key
    rw [List.filter_map, List.filter_map]
    simp only [Function.comp_def, hf, filter_sortKey_arrange]
  exact arrange_eq_iff.2 ⟨hordered, hkeys⟩

namespace Comparison

/-- The comparison with what it says of one contract said in another way. -/
def revise (d : Comparison) (name : String) (f : Violation → Violation) : Comparison :=
  { d with violations := d.violations.map fun v => if v.contract = name then f v else v }

/-- The comparison without what it says of one contract. -/
def without (d : Comparison) (name : String) : Comparison :=
  { d with violations := d.violations.filter (·.contract ≠ name) }

end Comparison

section

variable {current current' baseline baseline' : Snapshot} {policy : Policy} {name : String}

/-- The lists of contracts are told by the names. -/
theorem compare_eq_of_adjusted (hcurrent : current.Adjusted name current')
    (hbaseline : baseline.Adjusted name baseline') :
    compare current' baseline' policy =
      { violations := (compare current' baseline' policy).violations
        compared := (compare current baseline policy).compared
        added := (compare current baseline policy).added } := by
  have hcompared : (compare current' baseline' policy).compared =
      (compare current baseline policy).compared := by
    show baseline'.names.filter current'.contains = baseline.names.filter current.contains
    rw [hbaseline.names_eq, funext hcurrent.contains]
  have hadded : (compare current' baseline' policy).added =
      (compare current baseline policy).added := by
    show current'.names.filter (fun name => !baseline'.contains name) =
      current.names.filter fun name => !baseline.contains name
    rw [hcurrent.names_eq, funext hbaseline.contains]
  rw [← hcompared, ← hadded]

/-- **What is said of one contract in another way is said so in the whole comparison,** and all else
stays, the order included. -/
theorem compare_eq_revise (hcurrent : current.Adjusted name current')
    (hbaseline : baseline.Adjusted name baseline') {f : Violation → Violation}
    (hf : ∀ v, (f v).sortKey = v.sortKey)
    (hat : violationsAt current' baseline' policy name =
      (violationsAt current baseline policy name).map f) :
    compare current' baseline' policy = (compare current baseline policy).revise name f := by
  let g : Violation → Violation := fun v => if v.contract = name then f v else v
  have hg : ∀ v, (g v).sortKey = v.sortKey := by
    intro v
    by_cases hv : v.contract = name
    · simp only [g, if_pos hv, hf]
    · simp only [g, if_neg hv]
  -- at the other names nothing is changed, and there `g` does nothing
  have heach : ∀ other, violationsAt current' baseline' policy other =
      (violationsAt current baseline policy other).map g := by
    intro other
    by_cases hother : other = name
    · subst hother
      rw [hat]
      apply List.map_congr_left
      intro v hv
      exact (if_pos (contract_of_mem_violationsAt hv)).symm
    · have hid : ∀ v ∈ violationsAt current baseline policy other, g v = v := by
        intro v hv
        apply if_neg
        rw [contract_of_mem_violationsAt hv]
        exact hother
      rw [violationsAt_congr (hcurrent.off other hother) (hbaseline.off other hother),
        List.map_congr_left hid, List.map_id']
  have hviolations : (compare current' baseline' policy).violations =
      (compare current baseline policy).violations.map g := by
    rw [violations_eq_arrange, violations_eq_arrange, hbaseline.names_eq,
      ← Violation.arrange_map hg, List.map_flatMap, funext heach]
  rw [compare_eq_of_adjusted hcurrent hbaseline, hviolations]
  rfl

/-- A contract in which nothing is found any more is left out, and all else stays. -/
theorem compare_eq_without (hcurrent : current.Adjusted name current')
    (hbaseline : baseline.Adjusted name baseline')
    (hat : violationsAt current' baseline' policy name = []) :
    compare current' baseline' policy = (compare current baseline policy).without name := by
  have hothers : (compare current' baseline' policy).violations.filter (·.contract ≠ name) =
      (compare current' baseline' policy).violations := by
    rw [List.filter_eq_self]
    intro v hv
    obtain ⟨before, was, hmem⟩ := mem_violations.1 hv
    have hne : v.contract ≠ name := by
      rintro rfl
      rw [violationsAt_of_get? was] at hat
      rw [hat] at hmem
      cases hmem
    exact decide_eq_true hne
  have hviolations : (compare current' baseline' policy).violations =
      (compare current baseline policy).violations.filter (·.contract ≠ name) := by
    rw [← hothers]
    exact filter_violations_of_agreesOff hcurrent.off hbaseline.off
  rw [compare_eq_of_adjusted hcurrent hbaseline, hviolations]
  rfl

/-! ### Versions -/

variable {before now : Contract}

theorem violationsAt_withVersion (was : baseline.get? name = some before)
    (is : current.get? name = some now) (version : UInt64) :
    violationsAt (current.withVersion name version) baseline policy name =
      if version > before.version then []
      else (changes now before policy).map
        (changedViolation name { now with version } before) := by
  rw [violationsAt_of_get? was, violationsOf_withVersion is]

/-- **Up to the baseline's version all versions are alike.** -/
theorem compare_withVersion_of_le (was : baseline.get? name = some before)
    (is : current.get? name = some now) {v w : UInt64} (hv : v ≤ before.version)
    (hw : w ≤ before.version) :
    compare (current.withVersion name w) baseline policy =
      (compare (current.withVersion name v) baseline policy).revise name
        ({ · with currentVersion := some w }) := by
  apply compare_eq_revise (.versions current name v w) (.refl name baseline)
  · intro violation
    rfl
  · rw [violationsAt_withVersion was is, violationsAt_withVersion was is,
      if_neg (UInt64.not_lt.2 hv), if_neg (UInt64.not_lt.2 hw), List.map_map]
    rfl

/-- **Above the baseline's version a contract has no violations.** -/
theorem compare_withVersion_of_lt (was : baseline.get? name = some before)
    (is : current.get? name = some now) (v : UInt64) {w : UInt64} (hw : before.version < w) :
    compare (current.withVersion name w) baseline policy =
      (compare (current.withVersion name v) baseline policy).without name := by
  apply compare_eq_without (.versions current name v w) (.refl name baseline)
  rw [violationsAt_withVersion was is]
  exact if_pos hw

/-! ### Paths -/

/-- What is found in a contract does not depend on its paths, but repeats them: the current one in
changes, and the one of the baseline if the contract is gone. -/
theorem violationsAt_eq_map {p q : Contract → Path} {f : Violation → Violation}
    (hcurrent : current'.get? name = (current.get? name).map fun c => { c with path := p c })
    (hbaseline : baseline'.get? name = (baseline.get? name).map fun c => { c with path := q c })
    (hgone : ∀ before, f (goneViolation name before) =
      goneViolation name { before with path := q before })
    (hchanged : ∀ now before change, f (changedViolation name now before change) =
      changedViolation name { now with path := p now } before change) :
    violationsAt current' baseline' policy name =
      (violationsAt current baseline policy name).map f := by
  cases was : baseline.get? name with
  | none =>
    rw [was] at hbaseline
    rw [violationsAt_of_get?_eq_none was, violationsAt_of_get?_eq_none hbaseline]
    rfl
  | some before =>
    rw [was] at hbaseline
    rw [violationsAt_of_get? was, violationsAt_of_get? hbaseline]
    cases is : current.get? name with
    | none =>
      rw [is] at hcurrent
      unfold violationsOf
      rw [hcurrent, is]
      cases policy.removals with
      | requireBump => exact congrArg ([·]) (hgone before).symm
      | exempt => rfl
    | some now =>
      rw [is] at hcurrent
      rw [violationsOf_of_get? hcurrent, violationsOf_of_get? is]
      by_cases hversion : now.version > before.version
      · rw [if_pos hversion, if_pos hversion]
        rfl
      · rw [if_neg hversion, if_neg hversion, List.map_map]
        apply List.map_congr_left
        intro change _
        exact (hchanged now before change).symm

variable (current baseline policy name)

/-- **A current path is repeated in the violations of its contract,** unless this is gone. -/
theorem compare_withPath_current (path : Path) :
    compare (current.withPath name path) baseline policy =
      (compare current baseline policy).revise name fun v =>
        if v.currentVersion.isSome then { v with path } else v := by
  apply compare_eq_revise (.withPath current name path) (.refl name baseline)
  · intro v
    by_cases hv : v.currentVersion.isSome = true
    · rw [if_pos hv]
      rfl
    · rw [if_neg hv]
  · have hbaseline : baseline.get? name =
        (baseline.get? name).map fun c => { c with path := c.path } := Option.map_id'.symm
    exact violationsAt_eq_map Snapshot.get?_adjust_self hbaseline (fun _ => rfl) fun _ _ _ => rfl

/-- **A path of the baseline is repeated in the violation of a contract that is gone.** -/
theorem compare_withPath_baseline (path : Path) :
    compare current (baseline.withPath name path) policy =
      (compare current baseline policy).revise name fun v =>
        if v.currentVersion.isSome then v else { v with path } := by
  apply compare_eq_revise (.refl name current) (.withPath baseline name path)
  · intro v
    by_cases hv : v.currentVersion.isSome = true
    · rw [if_pos hv]
    · rw [if_neg hv]
      rfl
  · have hcurrent : current.get? name =
        (current.get? name).map fun c => { c with path := c.path } := Option.map_id'.symm
    exact violationsAt_eq_map hcurrent Snapshot.get?_adjust_self (fun _ => rfl) fun _ _ _ => rfl

end

/-- **Versions act as a threshold, and paths not at all.** A contract that is in both snapshots can
have any version up to the baseline's, and the comparison only repeats that version; with any
version above, the comparison is without the violations of the contract. A path that is replaced on
either side is repeated in violations of its contract. All else is as before: the other violations,
the order of all, and the lists of contracts. -/
theorem compare_withVersion_withPath {current baseline : Snapshot} {policy : Policy}
    {name : String} {before now : Contract} (was : baseline.get? name = some before)
    (is : current.get? name = some now) :
    (∀ v ≤ before.version, ∀ w ≤ before.version,
      compare (current.withVersion name w) baseline policy =
        (compare (current.withVersion name v) baseline policy).revise name
          ({ · with currentVersion := some w })) ∧
    (∀ v w, before.version < w →
      compare (current.withVersion name w) baseline policy =
        (compare (current.withVersion name v) baseline policy).without name) ∧
    (∀ other path, compare (current.withPath other path) baseline policy =
      (compare current baseline policy).revise other fun v =>
        if v.currentVersion.isSome then { v with path } else v) ∧
    ∀ other path, compare current (baseline.withPath other path) policy =
      (compare current baseline policy).revise other fun v =>
        if v.currentVersion.isSome then v else { v with path } :=
  ⟨fun _ hv _ hw => compare_withVersion_of_le was is hv hw,
    fun v _ hw => compare_withVersion_of_lt was is v hw,
    compare_withPath_current current baseline policy,
    compare_withPath_baseline current baseline policy⟩

/-- A stand that shows one function. -/
def standContract (version : UInt64) (signature : String) : Contract :=
  (Contract.new ⟨"contracts/Stand.sol"⟩ version).insert .signature
    (.declared .function "pay(uint256)" signature)

/-- The function of one stand is changed at a lesser version, and another stand is gone. -/
theorem compare_withVersion_withPath_stand :
    let current : Snapshot := ⟨.ofList [("Stand", standContract 3 "0x2")]⟩
    let baseline : Snapshot :=
      ⟨.ofList [("Kiosk", standContract 5 "0x1"), ("Stand", standContract 7 "0x1")]⟩
    (baseline.get? "Stand" = some (standContract 7 "0x1") ∧
      current.get? "Stand" = some (standContract 3 "0x2")) ∧
    (∀ v ≤ 7, ∀ w ≤ 7, compare (current.withVersion "Stand" w) baseline {} =
      (compare (current.withVersion "Stand" v) baseline {}).revise "Stand"
        ({ · with currentVersion := some w })) ∧
    (∀ v w, 7 < w → compare (current.withVersion "Stand" w) baseline {} =
      (compare (current.withVersion "Stand" v) baseline {}).without "Stand") ∧
    (∀ other path, compare (current.withPath other path) baseline {} =
      (compare current baseline {}).revise other fun v =>
        if v.currentVersion.isSome then { v with path } else v) ∧
    ∀ other path, compare current (baseline.withPath other path) {} =
      (compare current baseline {}).revise other fun v =>
        if v.currentVersion.isSome then v else { v with path } := by
  intro current baseline
  have was : baseline.get? "Stand" = some (standContract 7 "0x1") := by decide +kernel
  have is : current.get? "Stand" = some (standContract 3 "0x2") := by decide +kernel
  exact ⟨⟨was, is⟩, compare_withVersion_withPath was is⟩

end AbiGate
