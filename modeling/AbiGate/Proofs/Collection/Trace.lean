/-
# The calls of a collection

Whatever the collaborators do, the calls that a collection makes of them can be put down in a log,
each with what it came to. The log is kept beside the collaborators' own state and changes nothing:
results and states are those from before.

What a call of the collector logs is found step by step: each rule of `Tells` says what one
construct adds to the log.

Key definitions: `Event`, `Collaborators.traced`, `Request.log`, `Shadows`, `Tells`.
Key theorems: `Tells.bind`, `Tells.thenUndo`, `shadows_perform`.
-/
import AbiGate.Proofs.Collection.Relating
import Mathlib.Control.Monad.Basic

namespace AbiGate

/-- A call of a collaborator, with what it came to. -/
inductive Event where
  | isClean (answer : Except CollectionError Bool)
  | currentRef (answer : Except CollectionError String)
  | fetch (remote reference : String) (answer : Except CollectionError Unit)
  | checkout (reference : String) (answer : Except CollectionError Unit)
  | openScratch (answer : Except CollectionError Path)
  | closeScratch
  | addWorktree (revision : String) (place : Path) (answer : Except CollectionError Unit)
  | removeWorktree (place : Path) (answer : Except CollectionError Unit)
  | updateSubmodules (place : Path) (answer : Except CollectionError Unit)
  | clean (site : Site) (answer : Except CollectionError Unit)
  | compile (site : Site) (answer : Except CollectionError Unit)
  | extract (site : Site) (answer : Except CollectionError Snapshot)
  deriving DecidableEq

variable {σ α β : Type}

/-- An action beside which a log is kept. -/
abbrev Logging (σ : Type) := ExceptT CollectionError (StateM (σ × List Event))

/-- Acts, and logs the call with what it came to. -/
def noted (event : Except CollectionError α → Event) (act : ExceptT CollectionError (StateM σ) α) :
    Logging σ α :=
  ExceptT.mk fun w =>
    let (answer, w') := outcome act w.1
    (answer, w', w.2 ++ [event answer])

/-- The same collaborators, with every call logged. -/
def Collaborators.traced (c : Collaborators (StateM σ)) :
    Collaborators (StateM (σ × List Event)) where
  isClean := noted .isClean c.isClean
  currentRef := noted .currentRef c.currentRef
  fetch remote reference := noted (.fetch remote reference) (c.fetch remote reference)
  checkout reference := noted (.checkout reference) (c.checkout reference)
  openScratch := noted .openScratch c.openScratch
  closeScratch := fun w => ((), (c.closeScratch.run w.1).2, w.2 ++ [.closeScratch])
  addWorktree revision place :=
    noted (.addWorktree revision place) (c.addWorktree revision place)
  removeWorktree place := noted (.removeWorktree place) (c.removeWorktree place)
  updateSubmodules place := noted (.updateSubmodules place) (c.updateSubmodules place)
  clean site := noted (.clean site) (c.clean site)
  compile site := noted (.compile site) (c.compile site)
  extract site := noted (.extract site) (c.extract site)

/-- The calls that a request makes, in their order. -/
def Request.log (request : Request) (c : Collaborators (StateM σ)) (settings : BaselineSettings)
    (w : σ) : List Event :=
  (outcome (request.perform c.traced settings) (w, [])).2.2

/-! ### The log changes nothing -/

/-- An action with a log comes to what the plain one comes to, and leaves the same state. -/
def Shadows (act : Logging σ α) (plain : ExceptT CollectionError (StateM σ) α) : Prop :=
  ∀ w log, (outcome act (w, log)).1 = (outcome plain w).1 ∧
    (outcome act (w, log)).2.1 = (outcome plain w).2

namespace Shadows

theorem pure (a : α) : Shadows (pure a : Logging σ α) (pure a) := fun _ _ => ⟨rfl, rfl⟩

theorem throw (e : CollectionError) : Shadows (throw e : Logging σ α) (throw e) :=
  fun _ _ => ⟨rfl, rfl⟩

theorem noted (event : Except CollectionError α → Event)
    (act : ExceptT CollectionError (StateM σ) α) : Shadows (noted event act) act :=
  fun _ _ => ⟨rfl, rfl⟩

variable {x : Logging σ α} {y : ExceptT CollectionError (StateM σ) α}

theorem bind {f : α → Logging σ β} {g : α → ExceptT CollectionError (StateM σ) β}
    (hx : Shadows x y) (hf : ∀ a, Shadows (f a) (g a)) : Shadows (x >>= f) (y >>= g) := by
  intro w log
  obtain ⟨hresult, hstate⟩ := hx w log
  rcases hact : outcome x (w, log) with ⟨result, w', log'⟩
  rw [hact] at hresult hstate
  have hplain : outcome y w = (result, w') := Prod.ext hresult.symm hstate.symm
  cases result with
  | error e =>
    rw [outcome_bind_of_error hact, outcome_bind_of_error hplain]
    exact ⟨rfl, rfl⟩
  | ok a =>
    rw [outcome_bind_of_ok hact, outcome_bind_of_ok hplain]
    exact hf a w' log'

theorem thenUndo {undo : Logging σ Unit} {undoPlain : ExceptT CollectionError (StateM σ) Unit}
    (hx : Shadows x y) (hundo : Shadows undo undoPlain) :
    Shadows (thenUndo x undo) (thenUndo y undoPlain) := by
  intro w log
  obtain ⟨hresult, hstate⟩ := hx w log
  obtain ⟨hresult', hstate'⟩ := hundo (outcome x (w, log)).2.1 (outcome x (w, log)).2.2
  rw [outcome_thenUndo, outcome_thenUndo, ← hresult, ← hstate]
  exact ⟨congrArg (resultOf _) hresult', hstate'⟩

end Shadows

theorem Shadows.compositional :
    Compositional fun α (act : Logging σ α) plain => Shadows act plain where
  pure := .pure
  throw := .throw
  bind := .bind
  thenUndo := .thenUndo

theorem relates_traced (c : Collaborators (StateM σ)) :
    Relates (fun α (act : Logging σ α) plain => Shadows act plain) c.traced c where
  clean _ := .noted _ _
  compile _ := .noted _ _
  extract _ := .noted _ _
  fetch _ _ := .noted _ _
  openScratch := .noted _ _
  closeScratch := fun _ _ => ⟨rfl, rfl⟩
  addWorktree _ _ := .noted _ _
  removeWorktree _ := .noted _ _
  updateSubmodules _ := .noted _ _
  isClean := .noted _ _
  currentRef := .noted _ _
  checkout _ := .noted _ _

/-- **Calls are put down and nothing else changes.** -/
theorem shadows_perform (c : Collaborators (StateM σ)) (settings : BaselineSettings)
    (request : Request) :
    Shadows (request.perform c.traced settings) (request.perform c settings) :=
  Shadows.compositional.perform (relates_traced c) settings request

/-! ### What is logged -/

/-- Whatever state an action starts in, it comes to a result and adds to the log as said. -/
def Tells (act : Logging σ α) (P : Except CollectionError α → List Event → Prop) : Prop :=
  ∀ w log, ∃ events, (outcome act (w, log)).2.2 = log ++ events ∧
    P (outcome act (w, log)).1 events

namespace Tells

variable {P : Except CollectionError α → List Event → Prop} {x : Logging σ α}

theorem mono {Q : Except CollectionError α → List Event → Prop} (hx : Tells x P)
    (h : ∀ result events, P result events → Q result events) : Tells x Q := by
  intro w log
  obtain ⟨events, hlog, hp⟩ := hx w log
  exact ⟨events, hlog, h _ _ hp⟩

theorem pure (a : α) : Tells (pure a : Logging σ α) fun result events =>
    result = .ok a ∧ events = [] :=
  fun _ _ => ⟨[], (List.append_nil _).symm, rfl, rfl⟩

theorem throw (e : CollectionError) : Tells (throw e : Logging σ α) fun result events =>
    result = .error e ∧ events = [] :=
  fun _ _ => ⟨[], (List.append_nil _).symm, rfl, rfl⟩

theorem noted (event : Except CollectionError α → Event)
    (act : ExceptT CollectionError (StateM σ) α) :
    Tells (noted event act) fun result events => events = [event result] :=
  fun _ _ => ⟨_, rfl, rfl⟩

theorem closeScratch (c : Collaborators (StateM σ)) :
    Tells (ExceptT.lift c.traced.closeScratch) fun result events =>
      result = .ok () ∧ events = [.closeScratch] :=
  fun _ _ => ⟨_, rfl, rfl, rfl⟩

/-- After a failure nothing more is logged; else the second action logs behind the first. -/
theorem bind {f : α → Logging σ β} {Q : α → Except CollectionError β → List Event → Prop}
    {R : Except CollectionError β → List Event → Prop} (hx : Tells x P)
    (hf : ∀ a, Tells (f a) (Q a)) (herror : ∀ e events, P (.error e) events → R (.error e) events)
    (hok : ∀ a events result events', P (.ok a) events → Q a result events' →
      R result (events ++ events')) :
    Tells (x >>= f) R := by
  intro w log
  obtain ⟨events, hlog, hp⟩ := hx w log
  rcases h : outcome x (w, log) with ⟨e | a, w', log'⟩
  · rw [h] at hlog hp
    rw [outcome_bind_of_error h]
    exact ⟨events, hlog, herror e events hp⟩
  · rw [h] at hlog hp
    obtain ⟨events', hlog', hq⟩ := hf a w' log'
    rw [outcome_bind_of_ok h]
    refine ⟨events ++ events', ?_, hok a events _ events' hp hq⟩
    rw [hlog', show log' = log ++ events from hlog, List.append_assoc]

/-- A call logs one event. After a failure that is all; else what follows logs behind it. -/
theorem noted_bind {event : Except CollectionError α → Event}
    {act : ExceptT CollectionError (StateM σ) α} {f : α → Logging σ β}
    {Q : α → Except CollectionError β → List Event → Prop}
    {R : Except CollectionError β → List Event → Prop} (hf : ∀ a, Tells (f a) (Q a))
    (herror : ∀ e, R (.error e) [event (.error e)])
    (hok : ∀ a result events, Q a result events → R result (event (.ok a) :: events)) :
    Tells (AbiGate.noted event act >>= f) R := by
  refine (noted event act).bind hf ?_ ?_
  · intro e events hlog
    rw [hlog]
    exact herror e
  · intro a events result events' hlog hq
    rw [hlog]
    exact hok a result events' hq

/-- A result that is made of another one adds nothing. -/
theorem bind_pure {R : List Event → Prop} (hx : Tells x fun _ events => R events) (g : α → β) :
    Tells (x >>= fun a => Pure.pure (g a)) fun _ events => R events := by
  refine hx.bind (fun a => Tells.pure (g a)) (fun _ _ h => h) ?_
  intro a events result events' h hlog
  rw [hlog.2, List.append_nil]
  exact h

/-- What undoes an action logs behind it. -/
theorem thenUndo {undo : Logging σ Unit} {Q : Except CollectionError Unit → List Event → Prop}
    {R : Except CollectionError α → List Event → Prop} (hx : Tells x P) (hundo : Tells undo Q)
    (h : ∀ result events undone events', P result events → Q undone events' →
      R (resultOf result undone) (events ++ events')) :
    Tells (thenUndo x undo) R := by
  intro w log
  obtain ⟨events, hlog, hp⟩ := hx w log
  rcases hend : outcome x (w, log) with ⟨result, w', log'⟩
  rw [hend] at hlog hp
  obtain ⟨events', hlog', hq⟩ := hundo w' log'
  rw [outcome_thenUndo, hend]
  refine ⟨events ++ events', ?_, h result events _ events' hp hq⟩
  rw [hlog', show log' = log ++ events from hlog, List.append_assoc]

end Tells

/-- All calls that an action logs are of one kind. -/
def TellsOnly (kind : Event → Prop) (act : Logging σ α) : Prop :=
  Tells act fun _ events => ∀ e ∈ events, kind e

namespace TellsOnly

variable {kind : Event → Prop}

theorem pure (a : α) : TellsOnly kind (pure a : Logging σ α) :=
  (Tells.pure a).mono fun _ _ h => by simp [h.2]

theorem throw (e : CollectionError) : TellsOnly kind (throw e : Logging σ α) :=
  (Tells.throw e).mono fun _ _ h => by simp [h.2]

theorem noted {event : Except CollectionError α → Event} (h : ∀ answer, kind (event answer))
    (act : ExceptT CollectionError (StateM σ) α) : TellsOnly kind (noted event act) :=
  (Tells.noted event act).mono fun answer _ hlog => by simp [hlog, h answer]

theorem bind {x : Logging σ α} {f : α → Logging σ β} (hx : TellsOnly kind x)
    (hf : ∀ a, TellsOnly kind (f a)) : TellsOnly kind (x >>= f) :=
  Tells.bind hx hf (fun _ _ h => h) fun _ _ _ _ h h' => List.forall_mem_append.2 ⟨h, h'⟩

theorem thenUndo {x : Logging σ α} {undo : Logging σ Unit} (hx : TellsOnly kind x)
    (hundo : TellsOnly kind undo) : TellsOnly kind (thenUndo x undo) :=
  Tells.thenUndo hx hundo fun _ _ _ _ h h' => List.forall_mem_append.2 ⟨h, h'⟩

theorem compositional (kind : Event → Prop) :
    Compositional fun α (act _ : Logging σ α) => TellsOnly kind act where
  pure := .pure
  throw := .throw
  bind := .bind
  thenUndo := .thenUndo

end TellsOnly

end AbiGate
