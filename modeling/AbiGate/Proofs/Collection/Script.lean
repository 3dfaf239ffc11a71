/-
# Scripts

The calls that a collection makes are laid down beforehand in a script: steps that bring a baseline
up, the last of which materialises it; steps that build it and take its snapshot; and steps that
undo. Steps are taken in their order, up to the first one that fails. If the baseline was
materialised by then, the steps that undo follow; otherwise nothing does.

Two answers count as failures although the calls succeed: that the repository is not clean, and
that it is still at its original revision behind a checkout.

An action follows a script whatever state it starts in, and a rule for each construct says which
script an action follows that is put together from others.

Key definitions: `Step`, `Step.Taken`, `Cut`, `Script`, `Script.Logs`, `Follows`, `Plays`,
`PlaysClosed`.
Key theorems: `Cut.append`, `Follows.bind`, `Plays.thenUndo`, `Plays.bind`, `PlaysClosed.bind`.
-/
import AbiGate.Proofs.Collection.Trace

namespace AbiGate

/-! ### Scripts -/

/-- A step of a script: a call, and what has to come of it. -/
inductive Step where
  /-- Asks whether the repository is clean; it has to be. -/
  | isClean
  /-- Asks for the revision that the repository is at; this is the one. -/
  | original (reference : String)
  | fetch (remote reference : String)
  | checkout (reference : String)
  /-- Asks for the revision behind a checkout of `reference`; it must not be the original one. -/
  | switched (reference original : String)
  /-- Makes a directory for a separate working tree, which has its place there. -/
  | openScratch (place : Path)
  | addWorktree (revision : String) (place : Path)
  | removeWorktree (place : Path)
  | updateSubmodules (place : Path)
  | clean (site : Site)
  | compile (site : Site)
  | extract (site : Site)

/-- What a result says about success. -/
abbrev verdict {ε α : Type} (result : Except ε α) : Except ε Unit :=
  result.map fun _ => ()

theorem verdict_unit {ε : Type} (result : Except ε Unit) : verdict result = result := by
  cases result <;> rfl

/-- The calls in which a step is taken, each with whether the step succeeds. -/
inductive Step.Taken : Step → Event → Except CollectionError Unit → Prop where
  | clean_tree : Taken isClean (.isClean (.ok true)) (.ok ())
  | dirty_tree : Taken isClean (.isClean (.ok false)) (.error .dirtyWorkingTree)
  | isClean_error {e : CollectionError} : Taken isClean (.isClean (.error e)) (.error e)
  | original {reference : String} :
    Taken (original reference) (.currentRef (.ok reference)) (.ok ())
  | original_error {reference : String} {e : CollectionError} :
    Taken (original reference) (.currentRef (.error e)) (.error e)
  | switched {reference original now : String} (h : now ≠ original) :
    Taken (switched reference original) (.currentRef (.ok now)) (.ok ())
  | not_switched {reference original : String} :
    Taken (switched reference original) (.currentRef (.ok original))
      (.error (.checkoutDidNotSwitch reference original))
  | switched_error {reference original : String} {e : CollectionError} :
    Taken (switched reference original) (.currentRef (.error e)) (.error e)
  | openScratch {place : Path} : Taken (openScratch place) (.openScratch (.ok place)) (.ok ())
  | openScratch_error {place : Path} {e : CollectionError} :
    Taken (openScratch place) (.openScratch (.error e)) (.error e)
  | fetch {remote reference : String} (answer : Except CollectionError Unit) :
    Taken (fetch remote reference) (.fetch remote reference answer) answer
  | checkout {reference : String} (answer : Except CollectionError Unit) :
    Taken (checkout reference) (.checkout reference answer) answer
  | addWorktree {revision : String} {place : Path} (answer : Except CollectionError Unit) :
    Taken (addWorktree revision place) (.addWorktree revision place answer) answer
  | removeWorktree {place : Path} (answer : Except CollectionError Unit) :
    Taken (removeWorktree place) (.removeWorktree place answer) answer
  | updateSubmodules {place : Path} (answer : Except CollectionError Unit) :
    Taken (updateSubmodules place) (.updateSubmodules place answer) answer
  | clean {site : Site} (answer : Except CollectionError Unit) :
    Taken (clean site) (.clean site answer) answer
  | compile {site : Site} (answer : Except CollectionError Unit) :
    Taken (compile site) (.compile site answer) answer
  | extract {site : Site} (answer : Except CollectionError Snapshot) :
    Taken (extract site) (.extract site answer) (verdict answer)

/-- Steps are taken in their order, up to the end or to the first one that fails. -/
inductive Cut : List Step → List Event → Except CollectionError Unit → Prop where
  | done : Cut [] [] (.ok ())
  | failed {step : Step} {rest : List Step} {event : Event} {e : CollectionError}
      (h : step.Taken event (.error e)) : Cut (step :: rest) [event] (.error e)
  | passed {step : Step} {rest : List Step} {event : Event} {events : List Event}
      {result : Except CollectionError Unit} (h : step.Taken event (.ok ()))
      (hrest : Cut rest events result) : Cut (step :: rest) (event :: events) result

/-- The steps of a collection. -/
structure Script where
  /-- The steps up to the one that materialises the baseline. -/
  bringUp : List Step
  /-- The steps that build it and take its snapshot. -/
  build : List Step
  /-- The steps that undo what was done to materialise it. -/
  undo : List Step

/-- The calls that a script lays down: those up to the first failure, and those that undo exactly
if the baseline was materialised. What undoes is cut at a failure of its own. -/
inductive Script.Logs (s : Script) : List Event → Except CollectionError Unit → Prop where
  | unmaterialised {events : List Event} {e : CollectionError}
      (h : Cut s.bringUp events (.error e)) : s.Logs events (.error e)
  | undone {events events' events'' : List Event} {result result' : Except CollectionError Unit}
      (hup : Cut s.bringUp events (.ok ())) (hbuild : Cut s.build events' result)
      (hundo : Cut s.undo events'' result') :
      s.Logs (events ++ events' ++ events'') (resultOf result result')

/-- The script with steps before all others. -/
def Script.after (first : List Step) (s : Script) : Script :=
  { s with bringUp := first ++ s.bringUp }

/-- A directory for a separate working tree was made. -/
def Event.opens : Event → Bool
  | openScratch (.ok _) => true
  | _ => false

/-- What closes the directory for a separate working tree, if these calls made one. It is no call
of a collaborator, and comes when all calls are made. -/
def closing (calls : List Event) : List Event :=
  if calls.any Event.opens then [.closeScratch] else []

/-! ### What is in a log that follows a script -/

theorem Cut.append {steps steps' : List Step} {events events' : List Event}
    {result : Except CollectionError Unit} (h : Cut steps events (.ok ()))
    (h' : Cut steps' events' result) : Cut (steps ++ steps') (events ++ events') result := by
  generalize hok : (Except.ok () : Except CollectionError Unit) = passed at h
  induction h with
  | done => exact h'
  | failed => cases hok
  | passed htaken _ ih => exact .passed htaken (ih hok)

theorem Cut.append_of_error {steps events} {e : CollectionError} (h : Cut steps events (.error e))
    (steps' : List Step) : Cut (steps ++ steps') events (.error e) := by
  generalize herror : (Except.error e : Except CollectionError Unit) = result at h
  induction h with
  | done => cases herror
  | failed htaken => exact .failed (herror ▸ htaken)
  | passed htaken _ ih => exact .passed htaken (ih herror)

/-- What holds of the calls of every step holds of all that is logged. -/
theorem Cut.forall_mem {P : Event → Prop} {steps : List Step} {events : List Event}
    {result : Except CollectionError Unit} (h : Cut steps events result)
    (hsteps : ∀ step ∈ steps, ∀ event result, step.Taken event result → P event) :
    ∀ event ∈ events, P event := by
  induction h with
  | done => exact fun _ h => nomatch h
  | failed htaken =>
    exact List.forall_mem_singleton.2 (hsteps _ List.mem_cons_self _ _ htaken)
  | passed htaken _ ih =>
    refine List.forall_mem_cons.2 ⟨hsteps _ List.mem_cons_self _ _ htaken, ih ?_⟩
    exact fun step hstep => hsteps step (List.mem_cons_of_mem _ hstep)

namespace Script

/-- All steps of a script. -/
def steps (s : Script) : List Step :=
  s.bringUp ++ s.build ++ s.undo

variable {s : Script} {events : List Event} {result : Except CollectionError Unit}

theorem Logs.forall_mem {P : Event → Prop} (h : s.Logs events result)
    (hsteps : ∀ step ∈ s.steps, ∀ event result, step.Taken event result → P event) :
    ∀ event ∈ events, P event := by
  simp only [steps, List.forall_mem_append] at hsteps
  obtain ⟨⟨hup, hbuild⟩, hundo⟩ := hsteps
  cases h with
  | unmaterialised h => exact h.forall_mem hup
  | undone h h' h'' =>
    exact List.forall_mem_append.2
      ⟨List.forall_mem_append.2 ⟨h.forall_mem hup, h'.forall_mem hbuild⟩, h''.forall_mem hundo⟩

theorem Logs.after {first : List Step} {events' : List Event} (h : s.Logs events' result)
    (hfirst : Cut first events (.ok ())) : (s.after first).Logs (events ++ events') result := by
  cases h with
  | unmaterialised h => exact .unmaterialised (hfirst.append h)
  | undone h h' h'' =>
    rw [← List.append_assoc, ← List.append_assoc]
    exact .undone (hfirst.append h) h' h''

end Script

/-! ### What closes the directory -/

/-- No step makes a directory for a separate working tree. -/
def Bounded (steps : List Step) : Prop :=
  ∀ step ∈ steps, ∀ place, step ≠ .openScratch place

theorem Step.Taken.eq_openScratch {step : Step} {event : Event}
    {result : Except CollectionError Unit} (h : step.Taken event result)
    (hopens : event.opens = true) : ∃ place, step = .openScratch place := by
  cases h with
  | openScratch => exact ⟨_, rfl⟩
  | _ => cases hopens

theorem Step.Taken.opens_eq_false {steps : List Step} (hsteps : Bounded steps) :
    ∀ step ∈ steps, ∀ event result, step.Taken event result → event.opens = false := by
  intro step hstep event result htaken
  by_contra hopens
  obtain ⟨place, heq⟩ := htaken.eq_openScratch (eq_true_of_ne_false hopens)
  exact hsteps step hstep place heq

theorem closing_append {first : List Event} (h : ∀ event ∈ first, event.opens = false)
    (calls : List Event) : closing (first ++ calls) = closing calls := by
  have hnone : first.any Event.opens = false := by simpa using h
  unfold closing
  rw [List.any_append, hnone, Bool.false_or]

theorem closing_eq_nil {calls : List Event} (h : ∀ event ∈ calls, event.opens = false) :
    closing calls = [] := by
  have happend := closing_append h []
  rwa [List.append_nil] at happend

namespace Script

/-- The calls that a script lays down, and what closes the directory. -/
def LogsClosed (s : Script) (events : List Event) (result : Except CollectionError Unit) : Prop :=
  ∃ calls, events = calls ++ closing calls ∧ s.Logs calls result

variable {s : Script} {first : List Step} {events : List Event}
  {result : Except CollectionError Unit}

theorem Logs.logsClosed (h : s.Logs events result) (hs : Bounded s.steps) :
    s.LogsClosed events result := by
  refine ⟨events, ?_, h⟩
  rw [closing_eq_nil (h.forall_mem (Step.Taken.opens_eq_false hs)), List.append_nil]

theorem logsClosed_after_of_error {e : CollectionError} (hfirst : Bounded first)
    (h : Cut first events (.error e)) : (s.after first).LogsClosed events (.error e) := by
  refine ⟨events, ?_, .unmaterialised (h.append_of_error s.bringUp)⟩
  rw [closing_eq_nil (h.forall_mem (Step.Taken.opens_eq_false hfirst)), List.append_nil]

theorem LogsClosed.after {events' : List Event} (h : s.LogsClosed events' result)
    (hfirst : Bounded first) (hcut : Cut first events (.ok ())) :
    (s.after first).LogsClosed (events ++ events') result := by
  obtain ⟨calls, rfl, hlogs⟩ := h
  refine ⟨events ++ calls, ?_, hlogs.after hcut⟩
  rw [closing_append (hcut.forall_mem (Step.Taken.opens_eq_false hfirst)), List.append_assoc]

end Script

/-! ### Actions that follow a script -/

variable {σ α β : Type}

/-- An action takes these steps. -/
def Follows (steps : List Step) (act : Logging σ α) : Prop :=
  Tells act fun result events => Cut steps events (verdict result)

namespace Follows

variable {steps steps' : List Step} {x : Logging σ α}

theorem pure (a : α) : Follows [] (pure a : Logging σ α) :=
  (Tells.pure a).mono fun _ _ h => by
    rw [h.1, h.2]
    exact .done

theorem noted {step : Step} {event : Except CollectionError α → Event}
    (h : ∀ answer, step.Taken (event answer) (verdict answer))
    (act : ExceptT CollectionError (StateM σ) α) : Follows [step] (noted event act) :=
  (Tells.noted event act).mono fun answer _ hlog => by
    rw [hlog]
    cases answer with
    | error e => exact .failed (h _)
    | ok a => exact .passed (h _) .done

/-- A call that only succeeds or fails takes its step. -/
theorem call {step : Step} {event : Except CollectionError Unit → Event}
    (h : ∀ answer, step.Taken (event answer) answer)
    (act : ExceptT CollectionError (StateM σ) Unit) : Follows [step] (AbiGate.noted event act) := by
  refine noted (fun answer => ?_) act
  rw [verdict_unit]
  exact h answer

theorem bind {f : α → Logging σ β} (hx : Follows steps x) (hf : ∀ a, Follows steps' (f a)) :
    Follows (steps ++ steps') (x >>= f) :=
  Tells.bind hx hf (fun _ _ h => h.append_of_error steps') fun _ _ _ _ h h' => h.append h'

end Follows

/-- An action takes the steps of this script. -/
def Plays (s : Script) (act : Logging σ α) : Prop :=
  Tells act fun result events => s.Logs events (verdict result)

theorem verdict_resultOf (result : Except CollectionError α)
    (undone : Except CollectionError Unit) :
    verdict (resultOf result undone) = resultOf (verdict result) undone := by
  cases result <;> cases undone <;> rfl

namespace Plays

variable {s : Script} {x : Logging σ α}

theorem thenUndo {steps undoing : List Step} {undo : Logging σ Unit} (hx : Follows steps x)
    (hundo : Follows undoing undo) :
    Plays { bringUp := [], build := steps, undo := undoing } (thenUndo x undo) :=
  Tells.thenUndo hx hundo fun result events undone events' h h' => by
    have hback : Cut undoing events' undone := verdict_unit undone ▸ h'
    have hlogs : Script.Logs { bringUp := [], build := steps, undo := undoing }
        ([] ++ events ++ events') (resultOf (verdict result) undone) := .undone .done h hback
    rw [verdict_resultOf]
    exact hlogs

theorem bind {first : List Step} {f : α → Logging σ β} (hx : Follows first x)
    (hf : ∀ a, Plays s (f a)) : Plays (s.after first) (x >>= f) :=
  Tells.bind hx hf (fun _ _ h => .unmaterialised (h.append_of_error s.bringUp))
    fun _ _ _ _ h h' => h'.after h

end Plays

/-- An action takes the steps of a script, for some original revision and some place. -/
def PlaysClosed (script : String → Path → Script) (act : Logging σ α) : Prop :=
  Tells act fun result events =>
    ∃ original place, (script original place).LogsClosed events (verdict result)

namespace PlaysClosed

variable {script : String → Path → Script} {x : Logging σ α}

theorem bind {first : List Step} {f : α → Logging σ β} (hx : Follows first x)
    (hfirst : Bounded first) (hf : ∀ a, PlaysClosed script (f a)) :
    PlaysClosed (fun original place => (script original place).after first) (x >>= f) := by
  refine Tells.bind hx hf (fun e events h => ?_) fun a events result events' h h' => ?_
  · exact ⟨"", default, Script.logsClosed_after_of_error hfirst h⟩
  · obtain ⟨original, place, hlogs⟩ := h'
    exact ⟨original, place, hlogs.after hfirst h⟩

theorem bind_pure (hx : PlaysClosed script x) (g : α → β) :
    PlaysClosed script (x >>= fun a => Pure.pure (g a)) := by
  refine Tells.bind hx (fun a => Tells.pure (g a)) (fun _ _ h => h) ?_
  intro a events result events' h hpure
  rw [hpure.1, hpure.2, List.append_nil]
  exact h

end PlaysClosed

end AbiGate
