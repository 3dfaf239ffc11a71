/-
# What a collection asks of its collaborators

Each strategy has its script, and each request the one of its baseline, behind the steps for the
working tree. Whatever the collaborators answer, a collection takes the steps of its script, and its
result says how that ended. A repository that is not clean ends it at once.

Key definitions: `Strategy.script`, `Baseline.script`, `Request.script`.
Key theorems: `playsClosed_collectInWorktree`, `playsClosed_collectByCheckout`,
`playsClosed_perform`, `log_follows_script`.
-/
import AbiGate.Proofs.Collection.Script

namespace AbiGate

/-! ### The scripts -/

/-- The steps that build at a site and take the snapshot. -/
def buildSteps (site : Site) : List Step :=
  [.clean site, .compile site, .extract site]

/-- How a revision is brought up, behind steps that fetch it: in a separate working tree at a
place, or by a checkout that leads away from the original revision. -/
def Strategy.script (fetching : List Step) (revision original : String) (place : Path) :
    Strategy → Script
  | worktree => {
      bringUp := fetching ++ [.openScratch place, .addWorktree revision place]
      build := .updateSubmodules place :: buildSteps (.worktree place)
      undo := [.removeWorktree place] }
  | checkout => {
      bringUp := .original original :: fetching ++ [.checkout revision]
      build := .switched revision original :: buildSteps .repository
      undo := [.checkout original, .clean .repository] }

/-- The script for a baseline. Only one on a remote is fetched, and it is named by its remote. -/
def Baseline.script (strategy : Strategy) (b : Baseline) (original : String) (place : Path) :
    Script :=
  match b.remote with
  | some remote =>
    strategy.script [.fetch remote b.reference] (remote ++ "/" ++ b.reference) original place
  | none => strategy.script [] b.reference original place

/-- The script for a request. -/
def Request.script (settings : BaselineSettings) (original : String) (place : Path) :
    Request → Script
  | pair =>
    (settings.baseline.script settings.strategy original place).after
      (.isClean :: buildSteps .repository)
  | one .workingTree => { bringUp := [], build := buildSteps .repository, undo := [] }
  | one (.baseline b) => b.script settings.strategy original place

/-! ### The strategies -/

section

variable {σ : Type} (c : Collaborators (StateM σ)) (b : Baseline)

theorem follows_compileAndExtract (site : Site) :
    Follows (buildSteps site) (compileAndExtract c.traced site) :=
  Follows.bind (.call .clean _) fun _ => Follows.bind (.call .compile _) fun _ => .noted .extract _

theorem bounded_buildSteps (site : Site) : Bounded (buildSteps site) := by
  simp [Bounded, buildSteps]

/-- The steps that fetch a baseline. -/
def Baseline.fetching : List Step :=
  match b.remote with
  | some remote => [.fetch remote b.reference]
  | none => []

theorem Baseline.script_eq (strategy : Strategy) (original : String) (place : Path) :
    b.script strategy original place = strategy.script b.fetching b.revision original place := by
  obtain ⟨_ | remote, reference⟩ := b <;> rfl

theorem bounded_fetching : Bounded b.fetching := by
  obtain ⟨_ | remote, reference⟩ := b <;> simp [Bounded, Baseline.fetching]

theorem follows_fetchBaseline : Follows b.fetching (fetchBaseline c.traced b) := by
  obtain ⟨_ | remote, reference⟩ := b
  · exact .pure ()
  · exact .call .fetch _

/-- The script from the call that adds a working tree on. -/
def addedScript (revision : String) (place : Path) : Script where
  bringUp := [.addWorktree revision place]
  build := .updateSubmodules place :: buildSteps (.worktree place)
  undo := [.removeWorktree place]

theorem plays_addWorktree (revision : String) (place : Path) :
    Plays (addedScript revision place) (do
      c.traced.addWorktree revision place
      extractAdded c.traced place) := by
  have hbuild : Follows (.updateSubmodules place :: buildSteps (.worktree place)) (do
      c.traced.updateSubmodules place
      compileAndExtract c.traced (.worktree place)) :=
    Follows.bind (.call .updateSubmodules _) fun _ => follows_compileAndExtract c _
  exact Plays.bind (.call .addWorktree _) fun _ => .thenUndo hbuild (.call .removeWorktree _)

theorem playsClosed_openScratch (revision : String) :
    PlaysClosed (fun _ place => (addedScript revision place).after [.openScratch place]) (do
      let place ← c.traced.openScratch
      thenUndo
        (do
          c.traced.addWorktree revision place
          extractAdded c.traced place)
        (ExceptT.lift c.traced.closeScratch)) := by
  have hclosed : ∀ place, Tells
      (thenUndo
        (do
          c.traced.addWorktree revision place
          extractAdded c.traced place)
        (ExceptT.lift c.traced.closeScratch))
      fun result events => ∃ calls, events = calls ++ [.closeScratch] ∧
        (addedScript revision place).Logs calls (verdict result) := by
    intro place
    refine Tells.thenUndo (plays_addWorktree c revision place) (Tells.closeScratch c) ?_
    intro result events undone events' h hclose
    refine ⟨events, by rw [hclose.2], ?_⟩
    rw [hclose.1]
    cases result <;> exact h
  refine Tells.noted_bind hclosed (fun e => ?_) fun place result events h => ?_
  · have hfailed : Cut [.openScratch default] [.openScratch (.error e)] (.error e) :=
      .failed .openScratch_error
    exact ⟨"", default, _, rfl, .unmaterialised (hfailed.append_of_error [_])⟩
  · obtain ⟨calls, rfl, hlogs⟩ := h
    refine ⟨"", place, .openScratch (.ok place) :: calls, ?_, ?_⟩
    · simp [closing, Event.opens]
    · have hopened : Cut [.openScratch place] [.openScratch (.ok place)] (.ok ()) :=
        .passed .openScratch .done
      exact hlogs.after hopened

theorem playsClosed_collectInWorktree :
    PlaysClosed (b.script .worktree) (collectInWorktree c.traced b) := by
  have hall := PlaysClosed.bind (follows_fetchBaseline c b) (bounded_fetching b) fun _ =>
    playsClosed_openScratch c b.revision
  rw [collectInWorktree_eq]
  refine hall.mono fun result events h => ?_
  obtain ⟨original, place, hlogs⟩ := h
  refine ⟨original, place, ?_⟩
  rw [b.script_eq]
  exact hlogs

/-- The script from the checkout of the baseline on. -/
def switchedScript (revision original : String) : Script where
  bringUp := [.checkout revision]
  build := .switched revision original :: buildSteps .repository
  undo := [.checkout original, .clean .repository]

theorem follows_extractSwitched (original : String) :
    Follows (.switched b.revision original :: buildSteps .repository)
      (extractSwitched c.traced b original) := by
  refine Tells.noted_bind (fun now => ?_) (fun e => .failed .switched_error)
    fun _ _ _ h => h
  by_cases hnow : now = original
  · rw [if_pos hnow]
    refine (Tells.throw _).mono fun result events h => ?_
    rw [h.1, h.2, hnow]
    exact .failed .not_switched
  · rw [if_neg hnow]
    exact (follows_compileAndExtract c .repository).mono fun _ _ h => .passed (.switched hnow) h

theorem plays_checkout (original : String) :
    Plays (switchedScript b.revision original) (do
      c.traced.checkout b.revision
      thenUndo (extractSwitched c.traced b original) (switchBack c.traced original)) := by
  have hback : Follows [.checkout original, .clean .repository] (switchBack c.traced original) :=
    Follows.bind (.call .checkout _) fun _ => .call .clean _
  exact Plays.bind (.call .checkout _) fun _ =>
    .thenUndo (follows_extractSwitched c b original) hback

theorem bounded_checkoutScript (original : String) (place : Path) :
    Bounded (b.script .checkout original place).steps := by
  rw [b.script_eq]
  obtain ⟨_ | remote, reference⟩ := b <;>
    simp [Bounded, Script.steps, Strategy.script, Baseline.fetching, buildSteps]

theorem playsClosed_collectByCheckout :
    PlaysClosed (b.script .checkout) (collectByCheckout c.traced b) := by
  have hfetched := fun original => Plays.bind (follows_fetchBaseline c b) fun _ =>
    plays_checkout c b original
  have hlogs : Tells (collectByCheckout c.traced b) fun result events =>
      ∃ original, (b.script .checkout original default).Logs events (verdict result) := by
    rw [collectByCheckout_eq]
    refine Tells.noted_bind hfetched (fun e => ?_) fun original result events h => ?_
    · refine ⟨"", ?_⟩
      rw [b.script_eq]
      exact .unmaterialised (.failed .original_error)
    · refine ⟨original, ?_⟩
      have hasked : Cut [.original original] [.currentRef (.ok original)] (.ok ()) :=
        .passed .original .done
      rw [b.script_eq]
      exact h.after hasked
  refine hlogs.mono fun result events h => ?_
  obtain ⟨original, h⟩ := h
  exact ⟨original, default, h.logsClosed (bounded_checkoutScript b original default)⟩

/-! ### Every request -/

theorem playsClosed_collect (strategy : Strategy) :
    PlaysClosed (b.script strategy) (collect c.traced strategy (.baseline b)) := by
  cases strategy with
  | worktree => exact playsClosed_collectInWorktree c b
  | checkout => exact playsClosed_collectByCheckout c b

theorem playsClosed_collectPair (settings : BaselineSettings) :
    PlaysClosed (Request.pair.script settings) (collectPair c.traced settings) := by
  have hboth := PlaysClosed.bind (follows_compileAndExtract c .repository)
    (bounded_buildSteps .repository) fun current =>
      (playsClosed_collect c settings.baseline settings.strategy).bind_pure
        (SnapshotPair.mk current)
  have hfirst : Bounded (.isClean :: buildSteps .repository) := by simp [Bounded, buildSteps]
  refine Tells.noted_bind (fun clean => ?_) (fun e => ?_) fun _ _ _ h => h
  · cases clean with
    | false =>
      refine (Tells.throw _).mono fun result events h => ?_
      rw [h.1, h.2]
      exact ⟨"", default, Script.logsClosed_after_of_error hfirst (.failed .dirty_tree)⟩
    | true =>
      refine hboth.mono fun result events h => ?_
      obtain ⟨original, place, hlogs⟩ := h
      have hclean : Cut [.isClean] [.isClean (.ok true)] (.ok ()) := .passed .clean_tree .done
      exact ⟨original, place, hlogs.after (by simp [Bounded]) hclean⟩
  · exact ⟨"", default, Script.logsClosed_after_of_error hfirst (.failed .isClean_error)⟩

/-- What a collection logs is what its script lays down, and its result says how that ended. -/
theorem playsClosed_perform (settings : BaselineSettings) (request : Request) :
    PlaysClosed (request.script settings) (request.perform c.traced settings) := by
  cases request with
  | pair => exact (playsClosed_collectPair c settings).bind_pure Sum.inl
  | one selector =>
    cases selector with
    | workingTree =>
      have hbuilt : PlaysClosed (fun _ _ => ⟨[], buildSteps .repository, []⟩)
          (compileAndExtract c.traced .repository) := by
        refine (follows_compileAndExtract c .repository).mono fun result events h => ?_
        refine ⟨"", default, Script.Logs.logsClosed ?_ (bounded_buildSteps .repository)⟩
        have hlogs : Script.Logs ⟨[], buildSteps .repository, []⟩ ([] ++ events ++ [])
            (resultOf (verdict result) (.ok ())) := .undone .done h .done
        rw [List.nil_append, List.append_nil] at hlogs
        cases result <;> exact hlogs
      exact hbuilt.bind_pure Sum.inr
    | baseline b => exact (playsClosed_collect c b settings.strategy).bind_pure Sum.inr

/-! ### A repository that is not clean -/

theorem Step.Taken.ne_dirty {steps : List Step} (hsteps : .isClean ∉ steps) :
    ∀ step ∈ steps, ∀ event result, step.Taken event result → event ≠ .isClean (.ok false) := by
  rintro step hstep _ _ htaken rfl
  cases htaken
  exact hsteps hstep

theorem Script.Logs.eq_of_dirty {s : Script} {calls : List Event}
    {result : Except CollectionError Unit} (hs : .isClean ∉ s.steps)
    (h : (s.after [.isClean]).Logs calls result) (hdirty : .isClean (.ok false) ∈ calls) :
    calls = [.isClean (.ok false)] := by
  have hclean : ∀ {events result}, s.Logs events result →
      .isClean (.ok false) ∉ Event.isClean (.ok true) :: events := by
    intro events result hlogs hmem
    rcases List.mem_cons.1 hmem with heq | hmem
    · cases heq
    · exact hlogs.forall_mem (Step.Taken.ne_dirty hs) _ hmem rfl
  cases h with
  | unmaterialised h =>
    cases h with
    | failed htaken =>
      obtain rfl := List.mem_singleton.1 hdirty
      rfl
    | passed htaken hrest =>
      cases htaken
      exact absurd hdirty (hclean (.unmaterialised hrest))
  | undone hup hbuild hundo =>
    cases hup with
    | passed htaken hrest =>
      cases htaken
      exact absurd hdirty (hclean (.undone hrest hbuild hundo))

theorem isClean_not_mem_script (strategy : Strategy) (original : String) (place : Path) :
    .isClean ∉ (b.script strategy original place).steps := by
  rw [b.script_eq]
  obtain ⟨_ | remote, reference⟩ := b <;> cases strategy <;>
    simp [Script.steps, Strategy.script, Baseline.fetching, buildSteps]

/-- A repository that is not clean ends a request at once. -/
theorem eq_of_dirty {settings : BaselineSettings} {request : Request} {original : String}
    {place : Path} {calls : List Event} {result : Except CollectionError Unit}
    (h : (request.script settings original place).Logs calls result)
    (hdirty : .isClean (.ok false) ∈ calls) : calls = [.isClean (.ok false)] := by
  have hnever : .isClean ∉ (request.script settings original place).steps → False := fun hs =>
    h.forall_mem (Step.Taken.ne_dirty hs) _ hdirty rfl
  cases request with
  | pair =>
    refine Script.Logs.eq_of_dirty
      (s := (settings.baseline.script settings.strategy original place).after
        (buildSteps .repository)) ?_ h hdirty
    have hbaseline := isClean_not_mem_script settings.baseline settings.strategy original place
    simpa [Script.steps, Script.after, buildSteps] using hbaseline
  | one selector =>
    cases selector with
    | workingTree => exact (hnever (by simp [Request.script, Script.steps, buildSteps])).elim
    | baseline b => exact (hnever (isClean_not_mem_script b settings.strategy original place)).elim

/-- **What a collection asks of its collaborators follows its script,** whatever they answer, and
the collection succeeds or fails as the script ended. If the repository is not clean, nothing is
asked but that. -/
theorem log_follows_script (settings : BaselineSettings) (request : Request) (w : σ) :
    (∃ original place calls, request.log c settings w = calls ++ closing calls ∧
      (request.script settings original place).Logs calls
        (verdict (outcome (request.perform c settings) w).1)) ∧
    (.isClean (.ok false) ∈ request.log c settings w →
      request.log c settings w = [.isClean (.ok false)]) := by
  obtain ⟨events, hlog, original, place, calls, rfl, hcalls⟩ :=
    playsClosed_perform c settings request w []
  have hlog' : request.log c settings w = calls ++ closing calls := hlog
  rw [(shadows_perform c settings request w []).1] at hcalls
  refine ⟨⟨original, place, calls, hlog', hcalls⟩, fun hdirty => ?_⟩
  rw [hlog'] at hdirty ⊢
  have hmem : .isClean (.ok false) ∈ calls := by
    refine (List.mem_append.1 hdirty).resolve_right fun hclosing => ?_
    unfold closing at hclosing
    split at hclosing <;> simp at hclosing
  rw [eq_of_dirty hcalls hmem]
  rfl

end

end AbiGate
