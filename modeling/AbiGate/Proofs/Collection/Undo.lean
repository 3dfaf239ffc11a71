/-
# Whether a checkout is undone

The first checkout that a collection makes is the one of the baseline. It ought to be followed by a
checkout of the revision that the repository was at before. It is, whatever else fails, if it
reports success. A checkout that reports failure ends the collection on the spot, although a tool
may have switched the repository all the same: then the repository stays switched.

Key definitions: `firstCheckout?`, `Undone`, `Episode`.
Key theorems: `tells_perform`, `Episode.undone_iff`, `undone_log_iff`.
-/
import AbiGate.Proofs.Collection.Trace
import AbiGate.Tool.Machine

namespace AbiGate

namespace Event

/-- The revision that is checked out, and what came of it. -/
def checkout? : Event → Option (String × Except CollectionError Unit)
  | checkout reference answer => some (reference, answer)
  | _ => none

/-- The revision that the repository is said to be at. -/
def reported? : Event → Option String
  | currentRef (.ok reference) => some reference
  | _ => none

/-- Nothing is checked out, and no revision is reported. -/
def Silent (e : Event) : Prop :=
  e.checkout? = none ∧ e.reported? = none

end Event

/-- The first checkout in a log, with what it came to. -/
def firstCheckout? (log : List Event) : Option (String × Except CollectionError Unit) :=
  log.findSome? Event.checkout?

/-- Before the first checkout in a log, if there is one, one revision is reported, and a checkout of
that revision follows. -/
def Undone (log : List Event) : Prop :=
  ∀ before reference answer after, log = before ++ .checkout reference answer :: after →
    (∀ e ∈ before, e.checkout? = none) →
    ∃ original answer', before.filterMap Event.reported? = [original] ∧
      .checkout original answer' ∈ after

/-! ### The shape of a log -/

/-- What a collection logs about checkouts, if the baseline is at this revision. -/
inductive Episode (revision : String) : List Event → Prop where
  | unswitched {log : List Event} (h : ∀ e ∈ log, e.checkout? = none) : Episode revision log
  | refused {before : List Event} {e : CollectionError}
      (hbefore : ∀ e ∈ before, e.checkout? = none) :
      Episode revision (before ++ [.checkout revision (.error e)])
  | undone {before after : List Event} {original : String} {answer : Except CollectionError Unit}
      (hbefore : ∀ e ∈ before, e.checkout? = none)
      (hreported : before.filterMap Event.reported? = [original])
      (hback : .checkout original answer ∈ after) :
      Episode revision (before ++ .checkout revision (.ok ()) :: after)

theorem firstCheckout?_append {before after : List Event} {reference : String}
    {answer : Except CollectionError Unit} (h : ∀ e ∈ before, e.checkout? = none) :
    firstCheckout? (before ++ .checkout reference answer :: after) = some (reference, answer) := by
  unfold firstCheckout?
  rw [List.findSome?_append, List.findSome?_eq_none_iff.2 h]
  rfl

/-- A log has one first checkout. -/
theorem append_checkout_inj {before before' after after' : List Event}
    {reference reference' : String} {answer answer' : Except CollectionError Unit}
    (h : ∀ e ∈ before, e.checkout? = none) (h' : ∀ e ∈ before', e.checkout? = none)
    (heq : before ++ .checkout reference answer :: after =
      before' ++ .checkout reference' answer' :: after') :
    before = before' ∧ after = after' := by
  induction before generalizing before' with
  | nil =>
    cases before' with
    | nil =>
      cases heq
      exact ⟨rfl, rfl⟩
    | cons e before' =>
      obtain ⟨rfl, -⟩ := List.cons.inj heq
      cases h' _ List.mem_cons_self
  | cons e before ih =>
    cases before' with
    | nil =>
      obtain ⟨rfl, -⟩ := List.cons.inj heq
      cases h _ List.mem_cons_self
    | cons e' before' =>
      obtain ⟨rfl, hrest⟩ := List.cons.inj heq
      obtain ⟨rfl, rfl⟩ := ih (fun e he => h e (List.mem_cons_of_mem _ he))
        (fun e he => h' e (List.mem_cons_of_mem _ he)) hrest
      exact ⟨rfl, rfl⟩

namespace Episode

variable {revision : String} {log : List Event}

/-- A log is as it should be exactly if its first checkout does not report failure. -/
theorem undone_iff (h : Episode revision log) :
    Undone log ↔ ∀ reference e, firstCheckout? log ≠ some (reference, .error e) := by
  cases h with
  | unswitched h =>
    have hnone : firstCheckout? log = none := List.findSome?_eq_none_iff.2 h
    refine ⟨fun _ reference e => by simp [hnone], fun _ before reference answer after hlog _ => ?_⟩
    have hmem : Event.checkout reference answer ∈ log := by simp [hlog]
    cases h _ hmem
  | @refused before e hbefore =>
    refine ⟨fun hundone => ?_, fun hno => absurd (firstCheckout?_append hbefore) (hno _ _)⟩
    obtain ⟨_, _, -, hback⟩ := hundone before _ _ [] rfl hbefore
    cases hback
  | @undone before after original answer hbefore hreported hback =>
    refine ⟨fun _ reference e => ?_, fun _ before' reference' answer' after' hlog hbefore' => ?_⟩
    · rw [firstCheckout?_append hbefore]
      simp
    · obtain ⟨rfl, rfl⟩ := append_checkout_inj hbefore hbefore' hlog
      exact ⟨original, answer, hreported, hback⟩

/-- The first checkout is the one of the baseline. -/
theorem eq_revision (h : Episode revision log) {reference : String}
    {answer : Except CollectionError Unit}
    (hfirst : firstCheckout? log = some (reference, answer)) : reference = revision := by
  cases h with
  | unswitched h =>
    have hnone : firstCheckout? log = none := List.findSome?_eq_none_iff.2 h
    rw [hnone] at hfirst
    cases hfirst
  | refused hbefore =>
    rw [firstCheckout?_append hbefore] at hfirst
    cases hfirst
    rfl
  | undone hbefore =>
    rw [firstCheckout?_append hbefore] at hfirst
    cases hfirst
    rfl

/-- What comes before says nothing about checkouts. -/
theorem of_silent_append {first : List Event} (hsilent : ∀ e ∈ first, e.Silent)
    (h : Episode revision log) : Episode revision (first ++ log) := by
  have hquiet : ∀ e ∈ first, e.checkout? = none := fun e he => (hsilent e he).1
  cases h with
  | unswitched h => exact unswitched (List.forall_mem_append.2 ⟨hquiet, h⟩)
  | refused hbefore =>
    rw [← List.append_assoc]
    exact refused (List.forall_mem_append.2 ⟨hquiet, hbefore⟩)
  | undone hbefore hreported hback =>
    have hnothing : first.filterMap Event.reported? = [] :=
      List.filterMap_eq_nil_iff.2 fun e he => (hsilent e he).2
    rw [← List.append_assoc]
    refine undone (List.forall_mem_append.2 ⟨hquiet, hbefore⟩) ?_ hback
    rw [List.filterMap_append, hnothing, hreported, List.nil_append]

end Episode

/-! ### The strategies -/

section

variable {σ : Type} (c : Collaborators (StateM σ))

/-- Only the calls of the checkout strategy say anything about checkouts. -/
theorem silent_traced :
    RelatesWorktree (fun α (act _ : Logging σ α) => TellsOnly Event.Silent act) c.traced c.traced
    where
  clean _ := .noted (fun _ => ⟨rfl, rfl⟩) _
  compile _ := .noted (fun _ => ⟨rfl, rfl⟩) _
  extract _ := .noted (fun _ => ⟨rfl, rfl⟩) _
  fetch _ _ := .noted (fun _ => ⟨rfl, rfl⟩) _
  openScratch := .noted (fun _ => ⟨rfl, rfl⟩) _
  closeScratch := (Tells.closeScratch c).mono fun _ _ h => by
    rw [h.2]
    exact List.forall_mem_singleton.2 ⟨rfl, rfl⟩
  addWorktree _ _ := .noted (fun _ => ⟨rfl, rfl⟩) _
  removeWorktree _ := .noted (fun _ => ⟨rfl, rfl⟩) _
  updateSubmodules _ := .noted (fun _ => ⟨rfl, rfl⟩) _

theorem silent_compileAndExtract (site : Site) :
    TellsOnly Event.Silent (compileAndExtract c.traced site) :=
  (TellsOnly.compositional _).compileAndExtract (silent_traced c).toRelatesBuilding site

theorem silent_fetchBaseline (b : Baseline) :
    TellsOnly Event.Silent (fetchBaseline c.traced b) :=
  (TellsOnly.compositional _).fetchBaseline _ c.traced (silent_traced c).fetch b

theorem silent_collectInWorktree (b : Baseline) :
    TellsOnly Event.Silent (collectInWorktree c.traced b) :=
  (TellsOnly.compositional _).collectInWorktree (silent_traced c) b

/-- What a collection may log once a revision was reported. -/
def Continues (revision original : String) (log : List Event) : Prop :=
  ∀ before : List Event, (∀ e ∈ before, e.checkout? = none) →
    before.filterMap Event.reported? = [original] → Episode revision (before ++ log)

namespace Continues

variable {revision original : String} {log : List Event}

theorem of_silent (h : ∀ e ∈ log, e.Silent) : Continues revision original log :=
  fun _ hbefore _ => .unswitched (List.forall_mem_append.2 ⟨hbefore, fun e he => (h e he).1⟩)

theorem silent_append {first : List Event} (h : Continues revision original log)
    (hsilent : ∀ e ∈ first, e.Silent) : Continues revision original (first ++ log) := by
  intro before hbefore hreported
  have hnothing : first.filterMap Event.reported? = [] :=
    List.filterMap_eq_nil_iff.2 fun e he => (hsilent e he).2
  rw [← List.append_assoc]
  refine h (before ++ first) (List.forall_mem_append.2 ⟨hbefore, fun e he => (hsilent e he).1⟩) ?_
  rw [List.filterMap_append, hreported, hnothing, List.append_nil]

end Continues

/-- From the checkout on, a collection has failed or it calls for the original revision. -/
theorem tells_switched (b : Baseline) (original : String) :
    Tells (do
        c.traced.checkout b.revision
        thenUndo (extractSwitched c.traced b original) (switchBack c.traced original))
      fun _ events => Continues b.revision original events := by
  have hextract : Tells (extractSwitched c.traced b original) fun _ _ => True := by
    refine Tells.noted_bind (Q := fun _ _ _ => True) (fun now => ?_) (fun _ => trivial)
      fun _ _ _ _ => trivial
    split
    · exact (Tells.throw _).mono fun _ _ _ => trivial
    · exact Tells.mono (silent_compileAndExtract c .repository) fun _ _ _ => trivial
  have hback : Tells (switchBack c.traced original) fun _ events =>
      ∃ answer, .checkout original answer ∈ events := by
    refine Tells.noted_bind (fun _ => Tells.noted _ _) ?_ ?_
    · intro e
      exact ⟨_, List.mem_singleton_self _⟩
    · intro _ _ _ _
      exact ⟨_, List.mem_cons_self⟩
  have hundone : Tells (thenUndo (extractSwitched c.traced b original)
      (switchBack c.traced original)) fun _ events =>
      ∃ answer, .checkout original answer ∈ events := by
    refine hextract.thenUndo hback ?_
    intro _ events _ events' _ h
    obtain ⟨answer, hmem⟩ := h
    exact ⟨answer, List.mem_append_right events hmem⟩
  refine Tells.noted_bind (fun _ => hundone) ?_ ?_
  · intro e before hbefore _
    exact .refused hbefore
  · intro _ _ events h before hbefore hreported
    obtain ⟨answer, hmem⟩ := h
    exact .undone hbefore hreported hmem

theorem tells_collectByCheckout (b : Baseline) :
    Tells (collectByCheckout c.traced b) fun _ events => Episode b.revision events := by
  have hfetched : ∀ original, Tells (do
        fetchBaseline c.traced b
        c.traced.checkout b.revision
        thenUndo (extractSwitched c.traced b original) (switchBack c.traced original))
      fun _ events => Continues b.revision original events := by
    intro original
    refine Tells.bind (silent_fetchBaseline c b) (fun _ => tells_switched c b original) ?_ ?_
    · intro e events hsilent
      exact .of_silent hsilent
    · intro _ events _ events' hsilent hcontinues
      exact hcontinues.silent_append hsilent
  rw [collectByCheckout_eq]
  refine Tells.noted_bind hfetched ?_ ?_
  · intro e
    exact .unswitched (by simp [Event.checkout?])
  · intro original _ events hcontinues
    exact hcontinues [_] (by simp [Event.checkout?]) rfl

/-! ### Every request -/

theorem tells_collect_baseline (strategy : Strategy) (b : Baseline) :
    Tells (collect c.traced strategy (.baseline b)) fun _ events => Episode b.revision events := by
  cases strategy with
  | worktree =>
    exact Tells.mono (silent_collectInWorktree c b) fun _ _ h => .unswitched fun e he => (h e he).1
  | checkout => exact tells_collectByCheckout c b

theorem tells_collectPair (settings : BaselineSettings) :
    Tells (collectPair c.traced settings) fun _ events =>
      Episode settings.baseline.revision events := by
  have hboth : Tells (do
        let current ← collect c.traced settings.strategy .workingTree
        let baseline ← collect c.traced settings.strategy (.baseline settings.baseline)
        return SnapshotPair.mk current baseline)
      fun _ events => Episode settings.baseline.revision events := by
    refine Tells.bind (silent_compileAndExtract c .repository)
      (fun current => (tells_collect_baseline c _ _).bind_pure (SnapshotPair.mk current)) ?_ ?_
    · exact fun _ _ h => .unswitched fun e he => (h e he).1
    · exact fun _ _ _ _ hsilent h => h.of_silent_append hsilent
  refine Tells.noted_bind (Q := fun _ _ events => Episode settings.baseline.revision events)
    (fun clean => ?_) ?_ ?_
  · cases clean with
    | false => exact (Tells.throw _).mono fun _ _ h => .unswitched (by simp [h.2])
    | true => exact hboth
  · intro e
    exact .unswitched (by simp [Event.checkout?])
  · intro clean _ events h
    have hfirst : (Event.isClean (.ok clean)).Silent := ⟨rfl, rfl⟩
    exact h.of_silent_append (List.forall_mem_singleton.2 hfirst)

/-- A request checks out its baseline, if anything. -/
theorem tells_perform (settings : BaselineSettings) (request : Request) :
    Tells (request.perform c.traced settings) fun _ events =>
      (∀ e ∈ events, e.checkout? = none) ∨
      ∃ b, request.baseline? settings = some b ∧ Episode b.revision events := by
  cases request with
  | pair =>
    exact ((tells_collectPair c settings).bind_pure _).mono fun _ _ h => .inr ⟨_, rfl, h⟩
  | one selector =>
    cases selector with
    | workingTree =>
      exact (Tells.bind_pure (silent_compileAndExtract c .repository) _).mono
        fun _ _ h => .inl fun e he => (h e he).1
    | baseline b =>
      exact ((tells_collect_baseline c _ b).bind_pure _).mono fun _ _ h => .inr ⟨b, rfl, h⟩

/-- **A checkout of the baseline is undone exactly if it did not report failure.** -/
theorem undone_log_iff (settings : BaselineSettings) (request : Request) (w : σ) :
    (∀ reference answer, firstCheckout? (request.log c settings w) = some (reference, answer) →
      ∃ b, request.baseline? settings = some b ∧ reference = b.revision) ∧
    (Undone (request.log c settings w) ↔
      ∀ reference e, firstCheckout? (request.log c settings w) ≠ some (reference, .error e)) := by
  obtain ⟨events, hlog, hevents⟩ := tells_perform c settings request w []
  have hlog' : request.log c settings w = events := hlog
  rw [hlog']
  rcases hevents with hnone | ⟨b, hb, hepisode⟩
  · have hfirst : firstCheckout? events = none := List.findSome?_eq_none_iff.2 hnone
    exact ⟨by simp [hfirst], (Episode.unswitched hnone : Episode "" events).undone_iff⟩
  · exact ⟨fun _ _ h => ⟨b, hb, hepisode.eq_revision h⟩, hepisode.undone_iff⟩

end

/-! ### A checkout that reports failure after the switch -/

/-- A machine whose checkout of the baseline switches the repository and then reports failure, as
happens when a hook fails. -/
def hookedMachine : Machine where
  disk := FileTree.empty.put ["repo", "contracts", "README.md"]
    (.file (Text.Utf8.encode "of the feature"))
  home := ["repo"]
  worktree := ⟨"/scratch/tree"⟩
  scratchAvailable := true
  programs := ["git", "forge"]
  rules :=
    [⟨"git branch --show-current", none, none, ⟨Text.Utf8.encode "feature\n", [], .status 0⟩⟩,
      ⟨"git checkout origin/staging", none, some "staging",
        ⟨[], Text.Utf8.encode "hook failed\n", .status 1⟩⟩]
  trees := .ofList
    [("staging", [(⟨"contracts/README.md"⟩, .file (Text.Utf8.encode "of the baseline"))])]

/-- The collection gives up at the failed checkout, and the repository stays switched. -/
theorem not_undone_hooked :
    let c := Machine.surroundings.collaborators {} ⟨"."⟩
    let settings : BaselineSettings := { strategy := .checkout }
    ¬Undone (Request.pair.log c settings hookedMachine) ∧
      (outcome (Request.pair.perform c settings) hookedMachine).2.disk.entry?
          ["repo", "contracts", "README.md"] =
        some (.file (Text.Utf8.encode "of the baseline")) := by
  intro c settings
  have hlog : Request.pair.log c settings hookedMachine =
      [.isClean (.ok true), .clean .repository (.ok ()), .compile .repository (.ok ()),
        .extract .repository (.ok ⟨.empty⟩), .currentRef (.ok "feature"),
        .fetch "origin" "staging" (.ok ())] ++
      .checkout "origin/staging"
          (.error (.tool ⟨"git checkout origin/staging", .ended (.status 1) "hook failed"⟩)) ::
        [] := by
    decide +kernel
  refine ⟨fun h => ?_, by decide +kernel⟩
  obtain ⟨_, _, -, hback⟩ := h _ _ _ _ hlog (by decide)
  cases hback

end AbiGate
