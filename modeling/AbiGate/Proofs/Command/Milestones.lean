/-
# What a check runs

A machine keeps a record of the tools that ran. Some of these runs are milestones of a check: a
compilation, and a revision that is brought up, in a new working tree or by a checkout. An action
that succeeds reaches its milestones in their order, and a rule for each construct says which ones
an action reaches that is put together from others.

So the record tells what a collection compared: the working tree is compiled, then the baseline's
revision is brought up and compiled, and a checkout is undone.

Key definitions: `Milestone`, `Machine.milestones`, `Reaches`, `Strategy.milestones`.
Key theorems: `Reaches.bind`, `reaches_runTool`, `reaches_extractLive`, `snd_resolveSettings`,
`milestones_of_collectPair`.
-/
import AbiGate.Command.Configuration
import AbiGate.Proofs.Collection.Outcome
import AbiGate.Tool.Machine

namespace AbiGate

/-- A run of a tool that counts for the progress of a check, with the name of the tool. -/
inductive Milestone where
  /-- Sources were compiled. -/
  | built (forge : String)
  /-- A revision was brought up in a new working tree. -/
  | added (git revision : String)
  /-- A revision was brought up by a checkout. -/
  | checkedOut (git revision : String)
  deriving DecidableEq, Repr

/-- The milestone that a command is. -/
def Milestone.ofCommand? : List String → Option Milestone
  | [forge, "build"] => some (.built forge)
  | [git, "worktree", "add", "--detach", _, revision] => some (.added git revision)
  | [git, "checkout", revision] => some (.checkedOut git revision)
  | _ => none

/-- The milestones in a machine's record, in their order. -/
def Machine.milestones (k : Machine) : List Milestone :=
  k.calls.reverse.filterMap fun c => Milestone.ofCommand? c.argv

/-- If an action succeeds, these milestones have been added to the record. -/
def Reaches {ε α : Type} (ms : List Milestone) (act : ExceptT ε (StateM Machine) α) : Prop :=
  ∀ k a k', outcome act k = (.ok a, k') → k'.milestones = k.milestones ++ ms

/-! ### Constructs -/

namespace Reaches

variable {ε ε' α β : Type} {ms ms' : List Milestone} {x : ExceptT ε (StateM Machine) α}

theorem pure (a : α) : Reaches [] (pure a : ExceptT ε (StateM Machine) α) := by
  intro k b k' h
  cases h
  exact (List.append_nil _).symm

theorem throw (e : ε) : Reaches ms (throw e : ExceptT ε (StateM Machine) α) := by
  intro k a k' h
  cases h

theorem bind {f : α → ExceptT ε (StateM Machine) β} (hx : Reaches ms x)
    (hf : ∀ a, Reaches ms' (f a)) : Reaches (ms ++ ms') (x >>= f) := by
  intro k b k' h
  obtain ⟨a, between, hfirst, hrest⟩ := exists_of_outcome_bind_eq_ok h
  rw [hf a between b k' hrest, hx k a between hfirst, List.append_assoc]

theorem thenUndo {undo : ExceptT ε (StateM Machine) Unit} (hx : Reaches ms x)
    (hundo : Reaches ms' undo) : Reaches (ms ++ ms') (thenUndo x undo) := by
  intro k a k' h
  obtain ⟨between, hfirst, hback⟩ := exists_of_outcome_thenUndo_eq_ok h
  rw [hundo between () k' hback, hx k a between hfirst, List.append_assoc]

/-- What cannot fail has to keep the milestones. -/
theorem lift {act : StateM Machine α} (h : ∀ k, (act.run k).2.milestones = k.milestones) :
    Reaches [] (ExceptT.lift act : ExceptT ε (StateM Machine) α) := by
  intro k a k' hact
  rw [outcome_lift] at hact
  obtain ⟨-, rfl⟩ := Prod.mk.inj hact
  rw [h, List.append_nil]

theorem lift_bind {act : StateM Machine α} {f : α → ExceptT ε (StateM Machine) β}
    (h : ∀ k, (act.run k).2.milestones = k.milestones) (hf : ∀ a, Reaches ms (f a)) :
    Reaches ms (ExceptT.lift act >>= f) :=
  (lift h).bind hf

theorem adapt (hx : Reaches ms x) (g : ε → ε') : Reaches ms (ExceptT.adapt g x) := by
  intro k a k' h
  exact hx k a k' (outcome_eq_ok_of_adapt h)

theorem discard (hx : Reaches ms x) : Reaches ms (discard x) := by
  rw [discard_eq_bind, ← List.append_nil ms]
  exact hx.bind fun _ => .pure _

theorem foldlM {f : β → α → ExceptT ε (StateM Machine) β} (hf : ∀ b a, Reaches [] (f b a)) :
    ∀ (l : List α) (b : β), Reaches [] (l.foldlM f b)
  | [], b => .pure b
  | a :: l, b => (hf b a).bind fun b' => foldlM hf l b'

end Reaches

/-! ### Tools -/

namespace Machine

/-- A run is recorded, and brings up a tree if a rule says so. -/
theorem react_cases (argv : List String) (directory : Location) (k : Machine) :
    let calls := { argv, directory } :: k.calls
    (react argv directory k).2 = { k with calls } ∨
      ∃ rule tree, k.ruleFor? argv = some rule ∧ rule.tree = some tree ∧
        (react argv directory k).2 = { k with calls, disk := k.replace argv directory tree } := by
  unfold react
  cases hrule : k.ruleFor? argv with
  | none => exact .inl rfl
  | some rule =>
    cases htree : rule.tree with
    | none => exact .inl (by simp only [htree])
    | some tree => exact .inr ⟨rule, tree, rfl, htree, by simp only [htree]⟩

theorem milestones_react (argv : List String) (directory : Location) (k : Machine) :
    (react argv directory k).2.milestones =
      k.milestones ++ (Milestone.ofCommand? argv).toList := by
  have hcalls : (react argv directory k).2.calls = ⟨argv, directory⟩ :: k.calls := by
    rcases react_cases argv directory k with h | ⟨rule, tree, -, -, h⟩ <;> rw [h]
  unfold milestones
  rw [hcalls, List.reverse_cons, List.filterMap_append]
  cases hm : Milestone.ofCommand? argv <;> simp [hm]

/-- A program does not start, and then nothing is changed, or it runs in a directory. -/
theorem shell_cases (program : String) (directory : Path) (arguments : List String)
    (k : Machine) :
    (∃ why, shell program directory arguments k = (.error why, k)) ∨
      ∃ l, k.directoryAt directory = .ok l ∧ shell program directory arguments k =
        (.ok (react (program :: arguments) l k).1, (react (program :: arguments) l k).2) := by
  unfold shell
  split
  · exact .inl ⟨_, rfl⟩
  · split
    · exact .inl ⟨_, rfl⟩
    · next l hl =>
      split
      · exact .inl ⟨_, rfl⟩
      · exact .inr ⟨l, hl, rfl⟩

end Machine

section

variable (program : String) (directory : Path) (arguments : List String)

/-- A tool comes to what its run comes to, and leaves the machine that the run leaves. -/
theorem outcome_runTool (k : Machine) :
    outcome (runTool Machine.shell program directory arguments) k =
      match Machine.shell program directory arguments k with
      | (.error why, k') =>
        (.error ⟨commandLine program arguments, .notStarted why⟩, k')
      | (.ok run, k') =>
        (run.result.mapError fun fault => ⟨commandLine program arguments, fault⟩, k') := by
  refine (outcome_lift_bind (Machine.shell program directory arguments) _ k).trans ?_
  rcases Machine.shell program directory arguments k with ⟨why | run, k'⟩
  · rfl
  · cases hresult : run.result <;> simp only [hresult] <;> rfl

theorem snd_outcome_runTool (k : Machine) :
    (outcome (runTool Machine.shell program directory arguments) k).2 =
      (Machine.shell program directory arguments k).2 := by
  rw [outcome_runTool]
  rcases Machine.shell program directory arguments k with ⟨why | run, k'⟩ <;> rfl

/-- A tool that succeeds has run. -/
theorem reaches_runTool :
    Reaches (Milestone.ofCommand? (program :: arguments)).toList
      (runTool Machine.shell program directory arguments) := by
  intro k output k' h
  rw [outcome_runTool] at h
  rcases Machine.shell_cases program directory arguments k with
    ⟨why, hstart⟩ | ⟨l, -, hstart⟩
  · rw [hstart] at h
    cases h
  · rw [hstart] at h
    obtain ⟨-, rfl⟩ := Prod.mk.inj h
    exact Machine.milestones_react (program :: arguments) l k

/-- A tool that is no milestone leaves the milestones, whether it succeeds or not. -/
theorem milestones_runTool (h : Milestone.ofCommand? (program :: arguments) = none) (k : Machine) :
    (outcome (runTool Machine.shell program directory arguments) k).2.milestones =
      k.milestones := by
  rw [snd_outcome_runTool]
  rcases Machine.shell_cases program directory arguments k with
    ⟨why, hstart⟩ | ⟨l, -, hstart⟩
  · rw [hstart]
  · rw [hstart, Machine.milestones_react, h, Option.toList_none, List.append_nil]

end

theorem reaches_act (git : Git) (arguments : List String) :
    Reaches (Milestone.ofCommand? (git.program :: arguments)).toList
      (Surroundings.usingTool (git.act Machine.shell arguments)) :=
  (reaches_runTool git.program git.repository arguments).discard.adapt _

theorem reaches_isClean (git : Git) :
    Reaches [] (Surroundings.usingTool (git.isClean Machine.shell)) :=
  ((reaches_runTool git.program git.repository ["status", "--porcelain"]).bind
    fun _ => .pure _).adapt _

theorem reaches_currentRef (git : Git) :
    Reaches [] (Surroundings.usingTool (git.currentRef Machine.shell)) := by
  have hbranch := reaches_runTool git.program git.repository ["branch", "--show-current"]
  have hcommit := reaches_runTool git.program git.repository ["rev-parse", "HEAD"]
  refine Reaches.adapt (hbranch.bind fun branch => ?_) _
  show Reaches [] (ite _ _ _)
  split
  · exact hcommit.bind fun _ => .pure _
  · exact .pure _

/-! ### Extraction -/

section

variable (s : ExtractionSettings) (root : Path) (inspect : Inspector (StateM Machine))

/-- An inspector that leaves the milestones, whatever it answers. -/
def Quiet : Prop :=
  ∀ contract k, (inspect contract k).2.milestones = k.milestones

variable {inspect} (hquiet : Quiet inspect)

include hquiet

theorem reaches_addTracked (snapshot : Snapshot) (t : Tracked) :
    Reaches [] (addTracked s inspect snapshot t) := by
  unfold addTracked
  split
  · exact .throw _
  · refine Reaches.lift_bind (hquiet t.path) fun answer => ?_
    split
    · exact .throw _
    · split
      · exact .throw _
      · split
        · exact .throw _
        · exact .pure _

theorem reaches_addSource (snapshot : Snapshot) (source : Source) :
    Reaches [] (addSource s root inspect snapshot source) := by
  unfold addSource
  split
  · exact .throw _
  · exact .pure _
  · exact reaches_addTracked s hquiet snapshot _

omit hquiet in
theorem reaches_listDirectory (directory : Path) :
    Reaches [] (Machine.files.listDirectory directory) := by
  refine Reaches.lift_bind (fun k => rfl) fun answer => ?_
  split
  · exact .pure _
  · exact .throw _

theorem reaches_addEntries (depth : Nat) (directory : Path) (listed : List (String × Entry))
    (snapshot : Snapshot) :
    Reaches [] (addEntries s Machine.files root inspect depth directory listed snapshot) := by
  induction depth generalizing directory listed snapshot with
  | zero => exact .pure _
  | succ depth ih =>
    refine Reaches.foldlM (fun snapshot e => ?_) listed snapshot
    split
    · exact .pure _
    · exact (reaches_listDirectory _).bind fun listed => ih _ listed snapshot
    · show Reaches [] (ite _ _ _)
      split
      · exact .lift_bind (fun k => rfl) fun source =>
          reaches_addSource s root hquiet snapshot source
      · exact .pure _

/-- An extraction reaches no milestone. -/
theorem reaches_extractLive : Reaches [] (extractLive s Machine.files root inspect) := by
  refine Reaches.lift_bind (fun k => rfl) fun found => ?_
  split
  · exact (reaches_listDirectory _).bind fun listed => reaches_addEntries s root hquiet _ _ _ _
  · exact .pure _

end

/-- An inspection leaves what its run leaves, also if it fails: the reason is its answer. -/
theorem snd_inspect (forge : Forge) (root contract : Path) (k : Machine) :
    (forge.inspect Machine.shell root contract k).2 =
      (outcome (runTool Machine.shell forge.program root ["inspect", contract.text, "abi"])
        k).2 := by
  show (outcome (forge.listing Machine.shell root contract) k).2 = _
  unfold Forge.listing
  rcases hrun : outcome (runTool Machine.shell forge.program root ["inspect", contract.text, "abi"])
    k with ⟨e | text, k'⟩
  · rw [outcome_bind_of_error hrun]
  · rw [outcome_bind_of_ok hrun]
    rfl

theorem quiet_inspect (forge : Forge) (root : Path) :
    Quiet (forge.inspect Machine.shell root) := by
  intro contract k
  rw [snd_inspect]
  exact milestones_runTool forge.program root ["inspect", contract.text, "abi"] rfl k

/-! ### Settings -/

theorem snd_configurationFile (a : Arguments) (k : Machine) :
    (configurationFile Machine.surroundings a k).2 = k := by
  unfold configurationFile
  cases a.config <;> rfl

/-- Whatever settings there are, nothing changes for them. -/
theorem snd_resolveSettings (a : Arguments) (k : Machine) :
    (outcome (resolveSettings Machine.surroundings a) k).2 = k := by
  have hload : ∀ file, (outcome (loadSettings Machine.surroundings file) k).2 = k := by
    intro file
    refine (congrArg Prod.snd
      (outcome_lift_bind (Machine.surroundings.files.readText file) _ k)).trans ?_
    split
    · rfl
    · split <;> rfl
  refine (congrArg Prod.snd
    (outcome_lift_bind (configurationFile Machine.surroundings a) _ k)).trans ?_
  rw [snd_configurationFile]
  split
  · next file _ =>
    rcases h : outcome (loadSettings Machine.surroundings file) k with ⟨e | settings, k'⟩
    · rw [outcome_bind_of_error h]
      exact (congrArg Prod.snd h).symm.trans (hload file)
    · rw [outcome_bind_of_ok h]
      exact (congrArg Prod.snd h).symm.trans (hload file)
  · rfl

theorem reaches_resolveSettings (a : Arguments) :
    Reaches [] (resolveSettings Machine.surroundings a) := by
  intro k settings k' h
  have hkept := snd_resolveSettings a k
  rw [h] at hkept
  rw [show k' = k from hkept, List.append_nil]

/-! ### Collection -/

/-- What bringing up a revision and compiling it reaches. A checkout goes back to the original
revision afterwards; a separate working tree has none to go back to. -/
def Strategy.milestones (tools : ToolSettings) (revision original : String) :
    Strategy → List Milestone
  | .worktree => [.added tools.git revision, .built tools.forge]
  | .checkout =>
    [.checkedOut tools.git revision, .built tools.forge, .checkedOut tools.git original]

section

variable (settings : Settings) (repository : Path)

theorem reaches_compileAndExtract (site : Site) :
    Reaches [.built settings.tools.forge]
      (compileAndExtract (Machine.surroundings.collaborators settings repository) site) := by
  have hclean := reaches_runTool settings.tools.forge (Surroundings.siteRoot repository site)
    ["clean"]
  have hbuild := reaches_runTool settings.tools.forge (Surroundings.siteRoot repository site)
    ["build"]
  have hextract := reaches_extractLive settings.extraction
    (Surroundings.siteRoot repository site)
    (quiet_inspect ⟨settings.tools.forge⟩ (Surroundings.siteRoot repository site))
  exact (hclean.discard.adapt _).bind fun _ => (hbuild.discard.adapt _).bind fun _ =>
    hextract.adapt _

theorem reaches_fetchBaseline (b : Baseline) :
    Reaches [] (fetchBaseline (Machine.surroundings.collaborators settings repository) b) := by
  unfold fetchBaseline
  split
  · exact reaches_act ⟨settings.tools.git, repository⟩ ["fetch", _, b.reference]
  · exact .pure _

theorem reaches_openScratch :
    Reaches [] (Machine.surroundings.collaborators settings repository).openScratch := by
  refine Reaches.lift_bind (fun k => ?_) fun answer => ?_
  · show (Machine.openScratch k).2.milestones = _
    unfold Machine.openScratch
    split <;> rfl
  · split
    · exact .pure _
    · exact .throw _

theorem reaches_extractAdded (place : Path) :
    Reaches [.built settings.tools.forge]
      (extractAdded (Machine.surroundings.collaborators settings repository) place) := by
  have hsubmodules := (reaches_runTool settings.tools.git place
    ["submodule", "update", "--init", "--recursive"]).discard.adapt CollectionError.tool
  have hremove := reaches_act ⟨settings.tools.git, repository⟩
    ["worktree", "remove", "--force", place.text]
  exact (hsubmodules.bind fun _ =>
    reaches_compileAndExtract settings repository (.worktree place)).thenUndo hremove

theorem reaches_collectInWorktree (b : Baseline) :
    Reaches [.added settings.tools.git b.revision, .built settings.tools.forge]
      (collectInWorktree (Machine.surroundings.collaborators settings repository) b) := by
  have hadd := fun place : Path => reaches_act ⟨settings.tools.git, repository⟩
    ["worktree", "add", "--detach", place.text, b.revision]
  rw [collectInWorktree_eq]
  refine (reaches_fetchBaseline settings repository b).bind fun _ =>
    (reaches_openScratch settings repository).bind fun place => ?_
  exact ((hadd place).bind fun _ => reaches_extractAdded settings repository place).thenUndo
    (.lift fun _ => rfl)

theorem reaches_extractSwitched (b : Baseline) (original : String) :
    Reaches [.built settings.tools.forge]
      (extractSwitched (Machine.surroundings.collaborators settings repository) b original) := by
  refine (reaches_currentRef ⟨settings.tools.git, repository⟩).bind fun now => ?_
  by_cases hstuck : now = original
  · simp only [hstuck, if_true]
    exact .throw _
  · simp only [hstuck, if_false]
    exact reaches_compileAndExtract settings repository .repository

/-- A checkout goes back to the revision that it found. -/
theorem milestones_of_collectByCheckout {b : Baseline} {k k' : Machine} {snapshot : Snapshot}
    (h : outcome (collectByCheckout (Machine.surroundings.collaborators settings repository) b) k =
      (.ok snapshot, k')) :
    ∃ original, k'.milestones = k.milestones ++ [.checkedOut settings.tools.git b.revision,
      .built settings.tools.forge, .checkedOut settings.tools.git original] := by
  have href := reaches_currentRef ⟨settings.tools.git, repository⟩
  have hcheckout := fun revision => reaches_act ⟨settings.tools.git, repository⟩
    ["checkout", revision]
  have hclean := (reaches_runTool settings.tools.forge repository ["clean"]).discard.adapt
    CollectionError.tool
  rw [collectByCheckout_eq] at h
  -- the revision to go back to is an answer, so the first step is taken by hand
  obtain ⟨original, between, hfound, hrest⟩ := exists_of_outcome_bind_eq_ok h
  have hback := (hcheckout original).bind fun _ => hclean
  have hthere := (reaches_fetchBaseline settings repository b).bind fun _ =>
    (hcheckout b.revision).bind fun _ =>
      (reaches_extractSwitched settings repository b original).thenUndo hback
  refine ⟨original, ?_⟩
  rw [hthere between snapshot k' hrest, href k original between hfound, List.append_nil]
  rfl

/-- **What a collection compared.** It compiles the working tree, and then brings up the revision of
the baseline and compiles that one. -/
theorem milestones_of_collectPair {s : BaselineSettings} {k k' : Machine} {pair : SnapshotPair}
    (h : outcome (collectPair (Machine.surroundings.collaborators settings repository) s) k =
      (.ok pair, k')) :
    ∃ original, k'.milestones = k.milestones ++ .built settings.tools.forge ::
      s.strategy.milestones settings.tools s.baseline.revision original := by
  obtain ⟨clean, k₁, hstatus, hrest⟩ := exists_of_outcome_bind_eq_ok h
  cases clean
  -- a repository with changes is refused
  case false => cases hrest
  obtain ⟨current, k₂, hcurrent, hrest⟩ := exists_of_outcome_bind_eq_ok hrest
  obtain ⟨baseline, k₃, hbaseline, hrest⟩ := exists_of_outcome_bind_eq_ok hrest
  obtain rfl : k₃ = k' := by
    cases hrest
    rfl
  have hbuilt : k₂.milestones = k.milestones ++ [.built settings.tools.forge] := by
    rw [reaches_compileAndExtract settings repository .repository _ _ _ hcurrent,
      reaches_isClean ⟨settings.tools.git, repository⟩ _ _ _ hstatus, List.append_nil]
  cases hstrategy : s.strategy with
  | worktree =>
    rw [hstrategy] at hbaseline
    -- nothing is checked out, so there is nothing to go back to
    refine ⟨"", ?_⟩
    rw [reaches_collectInWorktree settings repository s.baseline _ _ _ hbaseline, hbuilt,
      List.append_assoc]
    rfl
  | checkout =>
    rw [hstrategy] at hbaseline
    obtain ⟨original, hthere⟩ := milestones_of_collectByCheckout settings repository hbaseline
    refine ⟨original, ?_⟩
    rw [hthere, hbuilt, List.append_assoc]
    rfl

end

end AbiGate
