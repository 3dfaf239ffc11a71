/-
# What a call comes to

An action on a state, which may fail, comes to a result and to the state that it leaves. A chain
of actions is followed step by step, by cases on what each step comes to. For the steps that leave
alone what one is after, a preorder on states says so, and whole chains keep to it.

Key definitions: `outcome`, `Moves`, `Request`, `Request.perform`.
Key theorems: `outcome_bind_of_ok`, `outcome_bind_of_error`, `outcome_thenUndo`, `Moves.bind`,
`Moves.thenUndo`.
-/
import AbiGate.Collection.Collect
import Mathlib.Order.Defs.Unbundled

namespace AbiGate

variable {ε σ α β : Type}

/-- What an action comes to in a state: its result, and the state that it leaves. -/
def outcome (act : ExceptT ε (StateM σ) α) (w : σ) : Except ε α × σ :=
  act.run.run w

theorem outcome_lift (act : StateM σ α) (w : σ) :
    outcome (ExceptT.lift act : ExceptT ε (StateM σ) α) w = (.ok (act.run w).1, (act.run w).2) :=
  rfl

section

variable {x : ExceptT ε (StateM σ) α} {f : α → ExceptT ε (StateM σ) β} {w w' : σ}

theorem outcome_bind_of_ok {a : α} (h : outcome x w = (.ok a, w')) :
    outcome (x >>= f) w = outcome (f a) w' := by
  unfold outcome at *
  simp only [ExceptT.run_bind, StateT.run_bind, h]
  rfl

theorem outcome_bind_of_error {e : ε} (h : outcome x w = (.error e, w')) :
    outcome (x >>= f) w = (.error e, w') := by
  unfold outcome at *
  simp only [ExceptT.run_bind, StateT.run_bind, h]
  rfl

theorem outcome_get_bind (f : σ → ExceptT ε (StateM σ) β) (w : σ) :
    outcome (get >>= f) w = outcome (f w) w := rfl

theorem outcome_lift_bind (act : StateM σ α) (f : α → ExceptT ε (StateM σ) β) (w : σ) :
    outcome (ExceptT.lift act >>= f) w = outcome (f (act w).1) (act w).2 := rfl

theorem outcome_modify_bind (g : σ → σ) (f : PUnit → ExceptT ε (StateM σ) β) (w : σ) :
    outcome (modify g >>= f) w = outcome (f ⟨⟩) (g w) := rfl

theorem discard_eq_bind (x : ExceptT ε (StateM σ) α) :
    discard x = x >>= fun _ => pure PUnit.unit := by
  rw [Functor.discard, map_const, Function.comp_apply, ← bind_pure_comp]

/-- What undoes an action starts from the state that the action left. -/
theorem outcome_thenUndo (act : ExceptT ε (StateM σ) α) (undo : ExceptT ε (StateM σ) Unit) (w : σ) :
    outcome (thenUndo act undo) w =
      (resultOf (outcome act w).1 (outcome undo (outcome act w).2).1,
        (outcome undo (outcome act w).2).2) := rfl

/-- A chain succeeds if its first action does, and then what follows. -/
theorem exists_of_outcome_bind_eq_ok {b : β} (h : outcome (x >>= f) w = (.ok b, w')) :
    ∃ a between, outcome x w = (.ok a, between) ∧ outcome (f a) between = (.ok b, w') := by
  rcases hx : outcome x w with ⟨e | a, between⟩
  · rw [outcome_bind_of_error hx] at h
    cases h
  · rw [outcome_bind_of_ok hx] at h
    exact ⟨a, between, rfl, h⟩

/-- An action that is undone succeeds if both it and what undoes it do. -/
theorem exists_of_outcome_thenUndo_eq_ok {undo : ExceptT ε (StateM σ) Unit} {a : α}
    (h : outcome (thenUndo x undo) w = (.ok a, w')) :
    ∃ between, outcome x w = (.ok a, between) ∧ outcome undo between = (.ok (), w') := by
  rw [outcome_thenUndo] at h
  rcases hx : outcome x w with ⟨result, between⟩
  rcases hundo : outcome undo between with ⟨undone, last⟩
  rw [hx] at h
  simp only [hundo] at h
  cases result <;> cases undone <;> cases h
  exact ⟨between, rfl, hundo⟩

/-- Errors of another kind come of the same failures. -/
theorem outcome_adapt {ε' : Type} (g : ε → ε') (x : ExceptT ε (StateM σ) α) (w : σ) :
    outcome (ExceptT.adapt g x) w = ((outcome x w).1.mapError g, (outcome x w).2) := rfl

theorem outcome_eq_ok_of_adapt {ε' : Type} {g : ε → ε'} {a : α}
    (h : outcome (ExceptT.adapt g x) w = (.ok a, w')) : outcome x w = (.ok a, w') := by
  rw [outcome_adapt] at h
  rcases hx : outcome x w with ⟨e | b, between⟩ <;> rw [hx] at h <;> cases h
  rfl

end

theorem resultOf_error_right {e : ε} (result : Except ε α) :
    ∃ e', resultOf result (.error e) = .error e' := by
  cases result with
  | error e' => exact ⟨e', rfl⟩
  | ok a => exact ⟨e, rfl⟩

/-! ### What a chain of actions keeps to -/

/-- Whatever comes of an action, it leaves a state to which the relation leads. -/
def Moves (R : σ → σ → Prop) (act : ExceptT ε (StateM σ) α) : Prop :=
  ∀ w, R w (outcome act w).2

namespace Moves

variable {R : σ → σ → Prop} [IsPreorder σ R]

theorem pure (a : α) : Moves R (pure a : ExceptT ε (StateM σ) α) := fun w => refl w

omit [IsPreorder σ R] in
theorem of_outcome {act : ExceptT ε (StateM σ) α} {w w' : σ} {result : Except ε α}
    (hact : Moves R act) (h : outcome act w = (result, w')) : R w w' := by
  have hstep := hact w
  rwa [h] at hstep

theorem throw (e : ε) : Moves R (throw e : ExceptT ε (StateM σ) α) := fun w => refl w

theorem bind {x : ExceptT ε (StateM σ) α} {f : α → ExceptT ε (StateM σ) β} (hx : Moves R x)
    (hf : ∀ a, Moves R (f a)) : Moves R (x >>= f) := by
  intro w
  rcases h : outcome x w with ⟨e | a, w'⟩
  · rw [outcome_bind_of_error h]
    exact hx.of_outcome h
  · rw [outcome_bind_of_ok h]
    exact IsTrans.trans _ _ _ (hx.of_outcome h) (hf a w')

theorem thenUndo {act : ExceptT ε (StateM σ) α} {undo : ExceptT ε (StateM σ) Unit}
    (hact : Moves R act) (hundo : Moves R undo) : Moves R (thenUndo act undo) := by
  intro w
  rw [outcome_thenUndo]
  exact IsTrans.trans _ _ _ (hact w) (hundo _)

end Moves

/-! ### The parts of the strategies -/

section

variable {m : Type → Type} [Monad m] (c : Collaborators m) (b : Baseline)

/-- Takes a baseline's snapshot from a separate working tree that was added for it. -/
def extractAdded (place : Path) : ExceptT CollectionError m Snapshot :=
  thenUndo
    (do
      c.updateSubmodules place
      compileAndExtract c (.worktree place))
    (c.removeWorktree place)

theorem collectInWorktree_eq :
    collectInWorktree c b = (do
      fetchBaseline c b
      let place ← c.openScratch
      thenUndo
        (do
          c.addWorktree b.revision place
          extractAdded c place)
        (ExceptT.lift c.closeScratch)) := rfl

/-- Takes a baseline's snapshot from the repository, which is to be switched to it. -/
def extractSwitched (before : String) : ExceptT CollectionError m Snapshot := do
  let now ← c.currentRef
  if now = before then throw (.checkoutDidNotSwitch b.revision now)
  compileAndExtract c .repository

/-- Brings the original revision back. -/
def switchBack (before : String) : ExceptT CollectionError m Unit := do
  c.checkout before
  c.clean .repository

theorem collectByCheckout_eq :
    collectByCheckout c b = (do
      let before ← c.currentRef
      fetchBaseline c b
      c.checkout b.revision
      thenUndo (extractSwitched c b before) (switchBack c before)) := rfl

end

/-! ### Calls of the collector -/

/-- What a collector is asked for: both snapshots, or the one of a state of the sources. -/
inductive Request where
  | pair
  | one (selector : Selector)
  deriving DecidableEq, Repr

namespace Request

/-- The baseline that a request needs. -/
def baseline? (settings : BaselineSettings) : Request → Option Baseline
  | pair => some settings.baseline
  | one .workingTree => none
  | one (.baseline b) => some b

/-- Answers a request. -/
def perform {m : Type → Type} [Monad m] (c : Collaborators m) (settings : BaselineSettings) :
    Request → ExceptT CollectionError m (SnapshotPair ⊕ Snapshot)
  | pair => do return .inl (← collectPair c settings)
  | one selector => do return .inr (← collect c settings.strategy selector)

end Request

end AbiGate
