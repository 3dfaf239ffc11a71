/-
# Collections do not disturb each other

If no call is made to fail, a collection leaves a repository that differs from the one before in its
log only, and what a collection comes to does not depend on the log. So of any number of requests,
one after the other, each is answered as if it were the only one: with the same result and by the
same calls. Revisions that nobody knows, sources that cannot be extracted, changes that are not
committed and checkouts without effect make no difference to this.

Key definitions: `Answer`, `answers`, `MemoryRepository.Undisturbed`, `MemoryRepository.Alike`.
Key theorems: `MemoryRepository.same_perform`, `MemoryRepository.answer_eq_of_twins`,
`MemoryRepository.answers_eq_map`.
-/
import AbiGate.Proofs.Collection.Restoration
import AbiGate.Proofs.Collection.Trace

namespace AbiGate

/-- What a request comes to, and the calls that were made for it. -/
structure Answer where
  result : Except CollectionError (SnapshotPair ⊕ Snapshot)
  calls : List Event
  deriving DecidableEq

section

variable {σ : Type} (c : Collaborators (StateM σ)) (settings : BaselineSettings)

/-- The answer to a request. -/
def Request.answer (request : Request) (w : σ) : Answer where
  result := (outcome (request.perform c settings) w).1
  calls := request.log c settings w

/-- The answers to requests, one after the other. -/
def answers : List Request → σ → List Answer
  | [], _ => []
  | request :: rest, w =>
    request.answer c settings w :: answers rest (outcome (request.perform c settings) w).2

end

namespace MemoryRepository

variable {α β : Type}

/-! ### The log makes no difference -/

/-- Two logs have grown by the same calls. -/
def Grown (log log' grown grown' : List Event) : Prop :=
  ∃ events, grown = log ++ events ∧ grown' = log' ++ events

theorem Grown.refl (log log' : List Event) : Grown log log' log log' :=
  ⟨[], (List.append_nil log).symm, (List.append_nil log').symm⟩

theorem Grown.trans {log log' between between' grown grown' : List Event}
    (h : Grown log log' between between') (h' : Grown between between' grown grown') :
    Grown log log' grown grown' := by
  obtain ⟨events, rfl, rfl⟩ := h
  obtain ⟨more, rfl, rfl⟩ := h'
  exact ⟨events ++ more, List.append_assoc .., List.append_assoc ..⟩

/-- No call of these repositories is made to fail, and only their logs tell them apart. -/
def Twins (r r' : MemoryRepository) : Prop :=
  r.failures = [] ∧ Same r r'

/-- Two actions with logs come to the same from repositories that only their own logs tell apart,
and log the same. -/
def Alike (x y : Logging MemoryRepository α) : Prop :=
  ∀ r r' log log', Twins r r' →
    (outcome x (r, log)).1 = (outcome y (r', log')).1 ∧
    Twins (outcome x (r, log)).2.1 (outcome y (r', log')).2.1 ∧
    Grown log log' (outcome x (r, log)).2.2 (outcome y (r', log')).2.2

/-- An action comes to the same from repositories that only their logs tell apart. -/
def Steady (act : Action α) : Prop :=
  ∀ r r', Twins r r' →
    (outcome act r).1 = (outcome act r').1 ∧ Twins (outcome act r).2 (outcome act r').2

namespace Alike

theorem pure (a : α) : Alike (pure a) (pure a) :=
  fun _ _ log log' h => ⟨rfl, h, .refl log log'⟩

theorem throw (e : CollectionError) :
    Alike (throw e : Logging MemoryRepository α) (throw e) :=
  fun _ _ log log' h => ⟨rfl, h, .refl log log'⟩

theorem noted {act : Action α} (hact : Steady act) (event : Except CollectionError α → Event) :
    Alike (noted event act) (noted event act) := by
  intro r r' log log' h
  obtain ⟨hresult, hended⟩ := hact r r' h
  refine ⟨hresult, hended, [event (outcome act r).1], rfl, ?_⟩
  rw [hresult]
  rfl

theorem bind {x y : Logging MemoryRepository α} {f g : α → Logging MemoryRepository β}
    (hx : Alike x y) (hf : ∀ a, Alike (f a) (g a)) : Alike (x >>= f) (y >>= g) := by
  intro r r' log log' h
  obtain ⟨hresult, hended, hgrown⟩ := hx r r' log log' h
  rcases hend : outcome x (r, log) with ⟨result, s, grown⟩
  rcases hend' : outcome y (r', log') with ⟨result', s', grown'⟩
  rw [hend, hend'] at hresult hended hgrown
  obtain rfl : result = result' := hresult
  cases result with
  | error e =>
    rw [outcome_bind_of_error hend, outcome_bind_of_error hend']
    exact ⟨rfl, hended, hgrown⟩
  | ok a =>
    rw [outcome_bind_of_ok hend, outcome_bind_of_ok hend']
    obtain ⟨hresult, hended', hgrown'⟩ := hf a s s' grown grown' hended
    exact ⟨hresult, hended', hgrown.trans hgrown'⟩

theorem thenUndo {x y : Logging MemoryRepository α} {undo undo' : Logging MemoryRepository Unit}
    (hx : Alike x y) (hundo : Alike undo undo') :
    Alike (thenUndo x undo) (thenUndo y undo') := by
  intro r r' log log' h
  obtain ⟨hresult, hended, hgrown⟩ := hx r r' log log' h
  obtain ⟨hundone, hended', hgrown'⟩ := hundo _ _ (outcome x (r, log)).2.2
    (outcome y (r', log')).2.2 hended
  rw [outcome_thenUndo, outcome_thenUndo]
  exact ⟨congrArg₂ resultOf hresult hundone, hended', hgrown.trans hgrown'⟩

theorem compositional :
    Compositional fun α (x y : Logging MemoryRepository α) => Alike x y where
  pure := .pure
  throw := .throw
  bind := .bind
  thenUndo := .thenUndo

end Alike

/-! ### Single calls -/

variable (s : ExtractionSettings)

theorem Twins.exists_log {r r' : MemoryRepository} (h : Twins r r') :
    ∃ log, r' = { r with log := log } :=
  ⟨r'.log, h.2⟩

theorem steady_pure (a : α) : Steady (pure a) := fun _ _ h => ⟨rfl, h⟩

theorem steady_throw (e : CollectionError) : Steady (throw e : Action α) := fun _ _ h => ⟨rfl, h⟩

/-- A change that does not look at the log, and touches neither it nor the failures. -/
theorem steady_modify {g : MemoryRepository → MemoryRepository}
    (h : ∀ r r', Twins r r' → Twins (g r) (g r')) : Steady (modify g) :=
  fun r r' htwins => ⟨rfl, h r r' htwins⟩

theorem Twins.logged {r r' : MemoryRepository} (h : Twins r r') (call : Call) :
    Twins (r.logged call) (r'.logged call) := by
  obtain ⟨log, rfl⟩ := h.exists_log
  exact ⟨h.1, rfl⟩

theorem steady_calling {call : Call} {act : Action α} (hact : Steady act) :
    Steady (calling call act) := by
  intro r r' h
  have hquiet : r'.failures = [] := by
    obtain ⟨log, rfl⟩ := h.exists_log
    exact h.1
  rw [outcome_calling_of_quiet h.1, outcome_calling_of_quiet hquiet]
  exact hact _ _ (h.logged call)

theorem steady_get_bind {f : MemoryRepository → Action α} (hf : ∀ r, Steady (f r))
    (h : ∀ r log, f { r with log := log } = f r) : Steady (get >>= f) := by
  intro r r' htwins
  rw [outcome_get_bind, outcome_get_bind]
  obtain ⟨log, rfl⟩ := htwins.exists_log
  rw [h r log]
  exact hf r _ _ htwins

theorem steady_isClean : Steady (collaborators s).isClean :=
  steady_calling (steady_get_bind (fun r => steady_pure r.clean) fun _ _ => rfl)

theorem steady_currentRef : Steady (collaborators s).currentRef :=
  steady_calling (steady_get_bind (fun r => steady_pure r.head) fun _ _ => rfl)

theorem steady_extract (site : Site) : Steady ((collaborators s).extract site) := by
  refine steady_get_bind (fun r => ?_) fun _ _ => rfl
  cases snapshotAt s r site with
  | ok snapshot => exact steady_pure snapshot
  | error e => exact steady_throw _

theorem steady_treeOf_bind {f : FileTree → Action α} (hf : ∀ tree, Steady (f tree)) (call : Call)
    (revision : String) : Steady (treeOf call revision >>= f) := by
  intro r r' htwins
  rw [outcome_treeOf_bind, outcome_treeOf_bind]
  obtain ⟨log, rfl⟩ := htwins.exists_log
  cases r.trees.get? revision with
  | some tree => exact hf tree _ _ htwins
  | none => exact ⟨rfl, htwins⟩

theorem steady_checkout (reference : String) : Steady ((collaborators s).checkout reference) := by
  refine steady_calling (steady_get_bind (fun r => ?_) fun _ _ => rfl)
  by_cases hstuck : r.stuck = true
  · rw [if_pos hstuck]
    exact steady_pure ()
  · rw [if_neg hstuck]
    refine steady_treeOf_bind (fun tree => steady_modify fun r r' h => ?_) _ _
    obtain ⟨log, rfl⟩ := h.exists_log
    exact ⟨h.1, rfl⟩

theorem steady_addWorktree (revision : String) (place : Path) :
    Steady ((collaborators s).addWorktree revision place) := by
  refine steady_calling (steady_treeOf_bind (fun tree => steady_modify fun r r' h => ?_) _ _)
  obtain ⟨log, rfl⟩ := h.exists_log
  exact ⟨h.1, rfl⟩

theorem steady_removeWorktree (place : Path) : Steady ((collaborators s).removeWorktree place) := by
  refine steady_calling (steady_modify fun r r' h => ?_)
  obtain ⟨log, rfl⟩ := h.exists_log
  exact ⟨h.1, rfl⟩

theorem steady_openScratch : Steady (collaborators s).openScratch := by
  intro r r' h
  have havailable : r'.scratchAvailable = r.scratchAvailable := by
    obtain ⟨log, rfl⟩ := h.exists_log
    rfl
  rw [outcome_openScratch, outcome_openScratch, havailable]
  split
  · obtain ⟨log, rfl⟩ := h.exists_log
    exact ⟨rfl, h.1, rfl⟩
  · exact ⟨rfl, h⟩

theorem alike_closeScratch : Alike (ExceptT.lift (collaborators s).traced.closeScratch)
    (ExceptT.lift (collaborators s).traced.closeScratch) := by
  intro r r' log log' h
  obtain ⟨l, rfl⟩ := h.exists_log
  exact ⟨rfl, ⟨h.1, rfl⟩, [.closeScratch], rfl, rfl⟩

theorem alike_traced : Relates (fun α (x y : Logging MemoryRepository α) => Alike x y)
    (collaborators s).traced (collaborators s).traced where
  clean _ := .noted (steady_calling (steady_pure ())) _
  compile _ := .noted (steady_calling (steady_pure ())) _
  extract site := .noted (steady_extract s site) _
  fetch _ _ := .noted (steady_calling (steady_pure ())) _
  openScratch := .noted (steady_openScratch s) _
  closeScratch := alike_closeScratch s
  addWorktree revision place := .noted (steady_addWorktree s revision place) _
  removeWorktree place := .noted (steady_removeWorktree s place) _
  updateSubmodules _ := .noted (steady_calling (steady_pure ())) _
  isClean := .noted (steady_isClean s) _
  currentRef := .noted (steady_currentRef s) _
  checkout reference := .noted (steady_checkout s reference) _

variable (settings : BaselineSettings) (request : Request)

/-- **What a request is answered does not depend on the log.** -/
theorem answer_eq_of_twins {r r' : MemoryRepository} (h : Twins r r') :
    request.answer (collaborators s) settings r' = request.answer (collaborators s) settings r := by
  have hperform := Alike.compositional.perform (alike_traced s) settings request
  obtain ⟨hresult, -, events, hlog, hlog'⟩ := hperform r r' [] [] h
  have hshadow := (shadows_perform (collaborators s) settings request r []).1
  have hshadow' := (shadows_perform (collaborators s) settings request r' []).1
  unfold Request.answer Request.log
  rw [← hshadow, ← hshadow', hresult, hlog, hlog']

/-! ### The repository is the same -/

/-- No call is made to fail, the working tree holds what the revision holds that the repository is
at, and there is no separate working tree. -/
structure Undisturbed (r : MemoryRepository) : Prop where
  quiet : r.failures = []
  content : r.trees.get? r.head = some r.content
  closed : r.scratchOpen = false
  alone : r.worktree = none

theorem Undisturbed.faithful {r : MemoryRepository} (h : Undisturbed r) : Faithful r :=
  fun _ htree => Option.some.inj (htree.symm.trans h.content)

theorem Undisturbed.of_same {r r' : MemoryRepository} (h : Undisturbed r) (hsame : Same r r') :
    Undisturbed r' := by
  unfold Same at hsame
  rw [hsame]
  exact ⟨h.quiet, h.content, h.closed, h.alone⟩

/-- The original revision can always be brought back. -/
theorem Undisturbed.not_restoreFailed {r r' : MemoryRepository} (h : Undisturbed r) :
    ¬RestoreFailed s r r' := by
  intro hfailed
  obtain ⟨revision, tree, switched, e, -, hswitched, hback⟩ := hfailed
  have hquiet : switched.failures = [] := by
    rw [hswitched]
    exact h.quiet
  have hhead : switched.trees.get? r.head = some r.content := by
    rw [hswitched]
    exact h.content
  rw [outcome_checkout_of_quiet s hquiet hhead] at hback
  cases hback

theorem Undisturbed.same {r r' : MemoryRepository} (h : Undisturbed r) (hrestored : Restored r r') :
    Same r r' := by
  have haside := hrestored.aside
  have hclosed : r'.scratchOpen = r.scratchOpen :=
    (hrestored.scratch h.closed).trans h.closed.symm
  have halone : r'.worktree = r.worktree := (hrestored.worktree h.alone).trans h.alone.symm
  unfold Aside at haside
  rw [hclosed, halone] at haside
  exact haside

theorem settles_perform {home : MemoryRepository} (hhome : Faithful home) :
    Settles s home settings.strategy (request.perform (collaborators s) settings) := by
  cases request with
  | pair => exact (settles_collectPair s hhome settings).bind_pure Sum.inl
  | one selector => exact (settles_collect s hhome _ selector).bind_pure Sum.inr

/-- **A request changes nothing but the log.** -/
theorem same_perform {r : MemoryRepository} (h : Undisturbed r) :
    Same r (outcome (request.perform (collaborators s) settings) r).2 := by
  rcases settles_perform s settings request h.faithful r rfl with hrestored | ⟨-, hfailed, -⟩
  · exact h.same hrestored
  · exact absurd hfailed (h.not_restoreFailed s)

/-- The induction is on the requests, from any repository that requests before them may have
left. -/
theorem answers_eq_map_of_same {home : MemoryRepository} (hhome : Undisturbed home) :
    ∀ (requests : List Request) (r : MemoryRepository), Same home r →
      answers (collaborators s) settings requests r =
        requests.map (·.answer (collaborators s) settings home)
  | [], _, _ => rfl
  | request :: rest, r, hr => by
    have hnext := hr.trans (same_perform s settings request (hhome.of_same hr))
    rw [answers, List.map_cons, answer_eq_of_twins s settings request ⟨hhome.quiet, hr⟩,
      answers_eq_map_of_same hhome rest _ hnext]

/-- **Each of any number of requests is answered as if it were the only one.** So whoever puts
them in another order, leaves some out or repeats some, finds the answers in that order, left out
or repeated. -/
theorem answers_eq_map {r : MemoryRepository} (hr : Undisturbed r) (requests : List Request) :
    answers (collaborators s) settings requests r =
      requests.map (·.answer (collaborators s) settings r) ∧
    ∀ positions : List Nat,
      answers (collaborators s) settings (positions.filterMap (requests[·]?)) r =
        positions.filterMap ((answers (collaborators s) settings requests r)[·]?) := by
  have hall := fun requests => answers_eq_map_of_same s settings hr requests r rfl
  refine ⟨hall requests, fun positions => ?_⟩
  rw [hall, hall, List.map_filterMap]
  simp

/-- A revision that nobody knows does not disturb the pairs before and behind it. -/
theorem answers_eq_map_noted :
    let settings : BaselineSettings := { strategy := .checkout }
    let requests : List Request := [.pair, .one (.baseline ⟨none, "gone"⟩), .pair]
    let given := answers (collaborators {}) settings requests notedRepository
    Undisturbed notedRepository ∧ given.map (·.result.isOk) = [true, false, true] ∧
      given = requests.map (·.answer (collaborators {}) settings notedRepository) ∧
      ∀ positions : List Nat,
        answers (collaborators {}) settings (positions.filterMap (requests[·]?)) notedRepository =
          positions.filterMap (given[·]?) := by
  intro settings requests given
  have hundisturbed : Undisturbed notedRepository := ⟨rfl, by decide +kernel, rfl, rfl⟩
  refine ⟨hundisturbed, by decide +kernel, ?_⟩
  exact answers_eq_map {} settings hundisturbed requests

end MemoryRepository

end AbiGate
