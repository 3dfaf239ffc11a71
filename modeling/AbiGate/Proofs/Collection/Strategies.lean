/-
# Both strategies come to the same

Where no call is made to fail and checkouts have an effect, a pair of snapshots is the pair of
extractions of two trees, that of the repository's head and that of the baseline, by either
strategy. A separate working tree may get more than the baseline holds, by its submodules; as long
as these leave the contracts directory alone they make no difference. What differs is the path of a
baseline source that cannot be read: it starts with the directory that the source was extracted in.

Key definitions: `MemoryRepository.updating`, `MemoryRepository.snapshotOf`,
`MemoryRepository.Ready`, `MemoryRepository.pairOf`.
Key theorems: `MemoryRepository.outcome_compileAndExtract`,
`MemoryRepository.result_collectByCheckout`, `MemoryRepository.result_collectInWorktree`,
`MemoryRepository.strategies_agree`.
-/
import AbiGate.Proofs.Collection.Restoration
import AbiGate.Proofs.Extraction.Relocation

namespace AbiGate

namespace MemoryRepository

variable (s : ExtractionSettings) (update : FileTree → FileTree)

/-- The repository's part in a collection where an update of submodules changes the separate
working tree. -/
def updating : Collaborators (StateM MemoryRepository) :=
  { collaborators s with
    updateSubmodules := fun _ => calling .updateSubmodules
      (modify fun r => { r with worktree := r.worktree.map update }) }

/-- A repository without submodules is one where their update changes nothing. -/
theorem updating_id : updating s id = collaborators s := by
  have hmodify : (modify fun r : MemoryRepository => { r with worktree := r.worktree.map id }) =
      (pure () : Action Unit) := by
    simp only [Option.map_id_fun, id_eq]
    rfl
  unfold updating
  rw [hmodify]
  rfl

/-- A tree as a root that contracts are looked for in. -/
def sourceRoot (tree : FileTree) (path : Path) : SourceRoot :=
  { tree := .mounted "tree" tree, location := ["tree"], path }

/-- The extraction of a tree. -/
def snapshotOf (tree : FileTree) (path : Path) : Except ExtractionError Snapshot :=
  (extract s (sourceRoot tree path) (inspectEmbedded (sourceRoot tree path))).run

/-- The pair of what two extractions came to, or the first failure. -/
def pairOf (current baseline : Except ExtractionError Snapshot) :
    Except CollectionError SnapshotPair := do
  let current ← current.mapError .extraction
  let baseline ← baseline.mapError .extraction
  return { current, baseline }

theorem pairOf_ok (current : Snapshot) (baseline : Except ExtractionError Snapshot) :
    pairOf (.ok current) baseline =
      (baseline.mapError .extraction).map (SnapshotPair.mk current) := by
  cases baseline <;> rfl

/-- Nothing stands in the way of a collection with this baseline: the repository is clean, at a
revision with a tree, no call is made to fail, checkouts have an effect, and the baseline is another
revision with a tree. -/
structure Ready (r : MemoryRepository) (b : Baseline) (baseline : FileTree) : Prop where
  clean : r.clean = true
  quiet : r.failures = []
  free : r.stuck = false
  scratch : r.scratchAvailable = true
  content : r.trees.get? r.head = some r.content
  baseline : r.trees.get? b.revision = some baseline
  apart : b.revision ≠ r.head

/-! ### Calls that do not fail -/

section

variable {r : MemoryRepository}

theorem outcome_clean_of_quiet (h : r.failures = []) (site : Site) :
    outcome ((updating s update).clean site) r = (.ok (), r.logged (.clean site)) := by
  change outcome (calling (.clean site) _) r = _
  rw [outcome_calling_of_quiet h]
  rfl

theorem outcome_currentRef_of_quiet (h : r.failures = []) :
    outcome (updating s update).currentRef r = (.ok r.head, r.logged .currentRef) := by
  change outcome (calling .currentRef _) r = _
  rw [outcome_calling_of_quiet h]
  rfl

theorem outcome_compileAndExtract (h : r.failures = []) (site : Site) :
    outcome (compileAndExtract (updating s update) site) r =
      ((snapshotAt s r site).mapError .extraction,
        (r.logged (.clean site)).logged (.compile site)) := by
  have hclean := outcome_clean_of_quiet s update h site
  have hcompile : outcome ((updating s update).compile site) (r.logged (.clean site)) =
      (.ok (), (r.logged (.clean site)).logged (.compile site)) :=
    outcome_calling_of_quiet (r := r.logged (.clean site)) h _ _
  unfold compileAndExtract
  rw [outcome_bind_of_ok hclean, outcome_bind_of_ok hcompile]
  change outcome (get >>= _) _ = _
  rw [outcome_get_bind]
  have hsame : snapshotAt s ((r.logged (.clean site)).logged (.compile site)) site =
      snapshotAt s r site := by
    cases site <;> rfl
  rw [hsame]
  cases snapshotAt s r site <;> rfl

theorem outcome_fetchBaseline (h : r.failures = []) (b : Baseline) :
    ∃ log, outcome (fetchBaseline (updating s update) b) r = (.ok (), { r with log := log }) := by
  unfold fetchBaseline
  cases b.remote with
  | none => exact ⟨r.log, rfl⟩
  | some remote => exact ⟨_, outcome_calling_of_quiet h _ _⟩

theorem outcome_addWorktree (h : r.failures = []) {revision : String} {tree : FileTree}
    (htree : r.trees.get? revision = some tree) (place : Path) :
    outcome ((updating s update).addWorktree revision place) r =
      (.ok (), { r.logged (.addWorktree revision) with worktree := some tree }) := by
  have htree' : (r.logged (.addWorktree revision)).trees.get? revision = some tree := htree
  change outcome (calling (.addWorktree revision) (fillWorktree revision)) r = _
  rw [outcome_calling_of_quiet h, fillWorktree, outcome_treeOf_bind, htree']
  rfl

theorem result_thenUndo {α : Type} {act : Action α} {undo : Action Unit}
    (h : (outcome undo (outcome act r).2).1 = .ok ()) :
    (outcome (thenUndo act undo) r).1 = (outcome act r).1 := by
  rw [outcome_thenUndo, h]
  cases (outcome act r).1 <;> rfl

theorem result_bind_pure {α β : Type} (act : Action α) (g : α → β) :
    (outcome (act >>= fun a => pure (g a)) r).1 = (outcome act r).1.map g := by
  rcases h : outcome act r with ⟨e | a, ended⟩
  · rw [outcome_bind_of_error h]
    rfl
  · rw [outcome_bind_of_ok h]
    rfl

/-! ### The strategies -/

theorem result_extractAdded (h : r.failures = []) {tree : FileTree}
    (htree : r.worktree = some tree) (place : Path) :
    (outcome (extractAdded (updating s update) place) r).1 =
      (snapshotOf s (update tree) place).mapError .extraction := by
  let updated := { r.logged .updateSubmodules with worktree := some (update tree) }
  have hupdate : outcome ((updating s update).updateSubmodules place) r = (.ok (), updated) := by
    change outcome (calling .updateSubmodules (modify _)) r = _
    rw [outcome_calling_of_quiet h]
    change (_, { r.logged .updateSubmodules with worktree := r.worktree.map update }) = _
    rw [htree]
    rfl
  have hbuilt := outcome_compileAndExtract s update (r := updated) h (.worktree place)
  have hremove : ∀ r : MemoryRepository, r.failures = [] →
      (outcome ((updating s update).removeWorktree place) r).1 = .ok () := by
    intro r h
    change (outcome (calling .removeWorktree _) r).1 = _
    rw [outcome_calling_of_quiet h]
    rfl
  unfold extractAdded
  rw [result_thenUndo, outcome_bind_of_ok hupdate, hbuilt]
  · rfl
  · rw [outcome_bind_of_ok hupdate, hbuilt]
    exact hremove _ h

theorem result_collectInWorktree {b : Baseline} {baseline : FileTree} (h : r.Ready b baseline) :
    (outcome (collectInWorktree (updating s update) b) r).1 =
      (snapshotOf s (update baseline) r.worktreePath).mapError .extraction := by
  obtain ⟨log, hfetch⟩ := outcome_fetchBaseline s update h.quiet b
  let opened := { r with log := log, scratchOpen := true }
  have hopen : outcome (updating s update).openScratch { r with log := log } =
      (.ok r.worktreePath, opened) := by
    change outcome (collaborators s).openScratch _ = _
    rw [outcome_openScratch, if_pos h.scratch]
  have hadd := outcome_addWorktree s update (r := opened) h.quiet h.baseline r.worktreePath
  rw [collectInWorktree_eq, outcome_bind_of_ok hfetch, outcome_bind_of_ok hopen,
    result_thenUndo rfl, outcome_bind_of_ok hadd]
  exact result_extractAdded s update (r := { opened.logged _ with worktree := some baseline })
    h.quiet rfl _

theorem result_switchBack (h : r.failures = []) {before : String} {tree : FileTree}
    (htree : r.trees.get? before = some tree) :
    (outcome (switchBack (updating s update) before) r).1 = .ok () := by
  obtain ⟨back, hback, hquiet⟩ : ∃ back,
      outcome ((updating s update).checkout before) r = (.ok (), back) ∧ back.failures = [] :=
    ⟨_, outcome_checkout_of_quiet s h htree, by split <;> exact h⟩
  unfold switchBack
  rw [outcome_bind_of_ok hback, outcome_clean_of_quiet s update hquiet]

theorem result_collectByCheckout {b : Baseline} {baseline : FileTree} (h : r.Ready b baseline) :
    (outcome (collectByCheckout (updating s update) b) r).1 =
      (snapshotOf s baseline r.path).mapError .extraction := by
  obtain ⟨log, hfetch⟩ := outcome_fetchBaseline s update (r := r.logged .currentRef) h.quiet b
  let fetched := { r with log := log }
  have hfetched : outcome (fetchBaseline (updating s update) b) (r.logged .currentRef) =
      (.ok (), fetched) := hfetch
  let switched :=
    { fetched.logged (.checkout b.revision) with content := baseline, head := b.revision }
  have hfree : ¬fetched.stuck = true := by
    change ¬r.stuck = true
    simp [h.free]
  have hcheckout : outcome ((updating s update).checkout b.revision) fetched =
      (.ok (), switched) := by
    change outcome ((collaborators s).checkout b.revision) fetched = _
    rw [outcome_checkout_of_quiet s (r := fetched) h.quiet h.baseline, if_neg hfree]
  have hnow := outcome_currentRef_of_quiet s update (r := switched) h.quiet
  have hbuilt := outcome_compileAndExtract s update (r := switched.logged .currentRef) h.quiet
    .repository
  have hextract : outcome (extractSwitched (updating s update) b r.head) switched =
      outcome (compileAndExtract (updating s update) .repository)
        (switched.logged .currentRef) := by
    unfold extractSwitched
    rw [outcome_bind_of_ok hnow, if_neg h.apart]
  rw [collectByCheckout_eq, outcome_bind_of_ok (outcome_currentRef_of_quiet s update h.quiet),
    outcome_bind_of_ok hfetched, outcome_bind_of_ok hcheckout, result_thenUndo, hextract, hbuilt]
  · rfl
  · rw [hextract, hbuilt]
    exact result_switchBack s update
      (r := ((switched.logged .currentRef).logged (.clean .repository)).logged
        (.compile .repository)) h.quiet h.content

theorem result_collect {b : Baseline} {baseline : FileTree} (h : r.Ready b baseline)
    (strategy : Strategy) :
    (outcome (collect (updating s update) strategy (.baseline b)) r).1 =
      (match strategy with
        | .checkout => snapshotOf s baseline r.path
        | .worktree => snapshotOf s (update baseline) r.worktreePath).mapError .extraction := by
  cases strategy with
  | checkout => exact result_collectByCheckout s update h
  | worktree => exact result_collectInWorktree s update h

theorem Ready.logged {b : Baseline} {baseline : FileTree} (h : r.Ready b baseline) (call : Call) :
    (r.logged call).Ready b baseline :=
  ⟨h.clean, h.quiet, h.free, h.scratch, h.content, h.baseline, h.apart⟩

/-- A pair of snapshots is the pair of two extractions. -/
theorem result_collectPair (settings : BaselineSettings) {baseline : FileTree}
    (h : r.Ready settings.baseline baseline) :
    (outcome (collectPair (updating s update) settings) r).1 =
      pairOf (snapshotOf s r.content r.path)
        (match settings.strategy with
          | .checkout => snapshotOf s baseline r.path
          | .worktree => snapshotOf s (update baseline) r.worktreePath) := by
  have hclean : outcome (updating s update).isClean r = (.ok true, r.logged .isClean) := by
    change outcome (calling .isClean _) r = _
    rw [outcome_calling_of_quiet h.quiet, ← h.clean]
    rfl
  have hbuilt := outcome_compileAndExtract s update (r := r.logged .isClean) h.quiet .repository
  have hready := ((h.logged .isClean).logged (.clean .repository)).logged (.compile .repository)
  have hresult := result_collect s update hready settings.strategy
  unfold collectPair
  rw [outcome_bind_of_ok hclean, if_neg (by simp)]
  change (outcome (compileAndExtract (updating s update) .repository >>= _) _).1 = _
  have hcurrent : snapshotAt s (r.logged .isClean) .repository =
      snapshotOf s r.content r.path := rfl
  rw [hcurrent] at hbuilt
  cases hsnapshot : snapshotOf s r.content r.path with
  | error e =>
    rw [hsnapshot] at hbuilt
    rw [outcome_bind_of_error hbuilt]
    rfl
  | ok current =>
    rw [hsnapshot] at hbuilt
    rw [outcome_bind_of_ok hbuilt]
    change (outcome (collect _ _ _ >>= fun before => pure (SnapshotPair.mk current before)) _).1 = _
    rw [result_bind_pure, hresult, pairOf_ok]
    rfl

/-! ### The extractions -/

/-- A contract has the same embedded listing in two trees with the same contracts. -/
theorem inspectEmbedded_eq {here there : SourceRoot} (hway : here.way = ⟨"."⟩)
    (hway' : there.way = ⟨"."⟩) (hc : s.contractsDir.isAbsolute = false)
    (hwf : here.tree.WellFormed) (hwf' : there.tree.WellFormed)
    (hsame : here.SameContracts s there) {q : Path} (hq : here.HasFile s q) :
    inspectEmbedded there q.trimmed = inspectEmbedded here q.trimmed := by
  obtain ⟨directory, names, content, hlocation, hne, hentry, rfl⟩ := hq
  have hentry' : there.tree.entry? (directory ++ names) = some (.file content) := by
    have hmem := FileTree.mem_below.2 ⟨hne, hentry⟩
    rw [← hsame.below directory hlocation] at hmem
    exact (FileTree.mem_below.1 hmem).2
  have hplace := SourceRoot.contractsLocation?_eq_some_iff.1 hlocation
  have hplace' := SourceRoot.contractsLocation?_eq_some_iff.1 (hsame.location.trans hlocation)
  rw [hway] at hplace
  rw [hway'] at hplace'
  unfold inspectEmbedded
  rw [FileTree.readText_below hwf hc hplace hne hentry,
    FileTree.readText_below hwf' hc hplace' hne hentry']

theorem relocated_snapshotOf {tree tree' : FileTree} {here there : Path}
    (hc : s.contractsDir.isAbsolute = false) (hhere : here.text ≠ "") (hthere : there.text ≠ "")
    (hwf : tree.WellFormed) (hwf' : tree'.WellFormed)
    (hsame : (sourceRoot tree here).SameContracts s (sourceRoot tree' there)) :
    Relocated here there (snapshotOf s tree here) (snapshotOf s tree' there) := by
  have hname : FileTree.IsEntryName "tree" := by
    decide
  exact relocated_extract (fun _ => rfl) (fun _ => rfl) hc (hwf.mounted hname) hhere hthere hsame
    fun q hq => inspectEmbedded_eq s rfl rfl hc (hwf.mounted hname) (hwf'.mounted hname) hsame hq

/-- **Both strategies come to the same pair,** the extraction of the repository's head and that of
the baseline, or to the same failure, except that the path of a baseline source that cannot be read
is the one below the directory that the baseline was brought up in. The roots must have a path; an
empty one names no directory. Trees that are read are well-formed (`FileTree.wellFormed_ofJson`). -/
theorem strategies_agree (settings : BaselineSettings) {baseline : FileTree}
    (h : r.Ready settings.baseline baseline) (hc : s.contractsDir.isAbsolute = false)
    (hr : r.path.text ≠ "") (hr' : r.worktreePath.text ≠ "") (hwf : baseline.WellFormed)
    (hwf' : (update baseline).WellFormed)
    (hsame : (sourceRoot baseline r.path).SameContracts s
      (sourceRoot (update baseline) r.worktreePath)) :
    let current := snapshotOf s r.content r.path
    let before := snapshotOf s baseline r.path
    (outcome (collectPair (updating s update) { settings with strategy := .checkout }) r).1 =
        pairOf current before ∧
      ∃ before', Relocated r.path r.worktreePath before before' ∧
        (outcome (collectPair (updating s update) { settings with strategy := .worktree }) r).1 =
          pairOf current before' := by
  intro current before
  refine ⟨result_collectPair s update { settings with strategy := .checkout } h,
    snapshotOf s (update baseline) r.worktreePath,
    relocated_snapshotOf s hc hr hr' hwf hwf' hsame, ?_⟩
  exact result_collectPair s update { settings with strategy := .worktree } h

end

/-- Settings with a short marker. -/
def briefSettings : ExtractionSettings where
  marker := "v ="

/-- A tree with one contract, which declares a version and embeds its listing. -/
def payingTree (version signature : String) : FileTree :=
  let source := "v = " ++ version ++ ";\n// abi: | error | Late() | " ++ signature ++ " |\n"
  FileTree.empty.put ["contracts", "Vault.sol"] (.file (Text.Utf8.encode source))

/-- A repository that changed a signature with a new version. -/
def payingRepository : MemoryRepository where
  trees := .ofList [("main", payingTree "2" "0x2"), ("origin/staging", payingTree "1" "0x1")]
  head := "main"
  content := payingTree "2" "0x2"
  path := ⟨"/repo"⟩
  worktreePath := ⟨"/scratch/tree"⟩

/-- An update of submodules that brings a library. -/
def withLibrary (tree : FileTree) : FileTree :=
  tree.put ["lib", "Math.sol"] (.file [])

/-- A library beside the contracts makes no difference. -/
theorem strategies_agree_paying :
    let r := payingRepository
    let baseline := payingTree "1" "0x1"
    let current := snapshotOf briefSettings r.content r.path
    let before := snapshotOf briefSettings baseline r.path
    let pairBy := fun strategy =>
      (outcome (collectPair (updating briefSettings withLibrary) { strategy }) r).1
    r.Ready ({} : BaselineSettings).baseline baseline ∧ withLibrary baseline ≠ baseline ∧
      (sourceRoot baseline r.path).SameContracts briefSettings
        (sourceRoot (withLibrary baseline) r.worktreePath) ∧
      (pairOf current before).isOk = true ∧ pairBy .checkout = pairOf current before ∧
      ∃ before', Relocated r.path r.worktreePath before before' ∧
        pairBy .worktree = pairOf current before' := by
  intro r baseline current before pairBy
  have hready : r.Ready ({} : BaselineSettings).baseline baseline :=
    ⟨rfl, rfl, rfl, rfl, by decide +kernel, by decide +kernel, by decide +kernel⟩
  have hlocation : (sourceRoot baseline r.path).contractsLocation? briefSettings =
      some ["tree", "contracts"] := by
    decide +kernel
  have hsame : (sourceRoot baseline r.path).SameContracts briefSettings
      (sourceRoot (withLibrary baseline) r.worktreePath) := by
    refine ⟨by decide +kernel, fun directory hdirectory => ?_⟩
    obtain rfl := Option.some.inj (hlocation.symm.trans hdirectory)
    decide +kernel
  refine ⟨hready, by decide +kernel, hsame, by decide +kernel, ?_⟩
  exact strategies_agree briefSettings withLibrary {} hready rfl (by decide) (by decide)
    (by decide +kernel) (by decide +kernel) hsame

end MemoryRepository

end AbiGate
