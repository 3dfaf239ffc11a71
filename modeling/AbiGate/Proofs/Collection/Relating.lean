/-
# What holds of every call holds of a collection

A relation between actions may be kept by all that a collection is put together with: results,
failures, one action after another, and an action with what undoes it. If it relates the calls of
two sets of collaborators as well, then it relates the collections. With the same collaborators on
both sides this says what is common to all that a collection does.

The strategies make different calls, so the calls that are to be related come in three steps: those
that build, those for a separate working tree, and the rest.

Key definitions: `Compositional`, `RelatesBuilding`, `RelatesWorktree`, `Relates`.
Key theorems: `Compositional.collectInWorktree`, `Compositional.collectByCheckout`,
`Compositional.perform`, `Moves.compositional`.
-/
import AbiGate.Proofs.Collection.Outcome

namespace AbiGate

variable {m m' : Type → Type} [Monad m] [Monad m']

/-- A relation between actions, kept by all that a collection is put together with. -/
structure Compositional
    (R : (α : Type) → ExceptT CollectionError m α → ExceptT CollectionError m' α → Prop) :
    Prop where
  pure : ∀ {α : Type} (a : α), R α (pure a) (pure a)
  throw : ∀ {α : Type} (e : CollectionError), R α (throw e) (throw e)
  bind : ∀ {α β : Type} {x : ExceptT CollectionError m α} {y : ExceptT CollectionError m' α}
    {f : α → ExceptT CollectionError m β} {g : α → ExceptT CollectionError m' β},
    R α x y → (∀ a, R β (f a) (g a)) → R β (x >>= f) (y >>= g)
  thenUndo : ∀ {α : Type} {x : ExceptT CollectionError m α} {y : ExceptT CollectionError m' α}
    {undo : ExceptT CollectionError m Unit} {undo' : ExceptT CollectionError m' Unit},
    R α x y → R Unit undo undo' → R α (thenUndo x undo) (thenUndo y undo')

section

variable (R : (α : Type) → ExceptT CollectionError m α → ExceptT CollectionError m' α → Prop)
  (c : Collaborators m) (c' : Collaborators m')

/-- The calls that build and extract are related. -/
structure RelatesBuilding : Prop where
  clean : ∀ site, R Unit (c.clean site) (c'.clean site)
  compile : ∀ site, R Unit (c.compile site) (c'.compile site)
  extract : ∀ site, R Snapshot (c.extract site) (c'.extract site)

/-- The calls for a baseline in a separate working tree are related. -/
structure RelatesWorktree : Prop extends RelatesBuilding R c c' where
  fetch : ∀ remote reference, R Unit (c.fetch remote reference) (c'.fetch remote reference)
  openScratch : R Path c.openScratch c'.openScratch
  closeScratch : R Unit (ExceptT.lift c.closeScratch) (ExceptT.lift c'.closeScratch)
  addWorktree : ∀ revision place,
    R Unit (c.addWorktree revision place) (c'.addWorktree revision place)
  removeWorktree : ∀ place, R Unit (c.removeWorktree place) (c'.removeWorktree place)
  updateSubmodules : ∀ place, R Unit (c.updateSubmodules place) (c'.updateSubmodules place)

/-- All calls are related. -/
structure Relates : Prop extends RelatesWorktree R c c' where
  isClean : R Bool c.isClean c'.isClean
  currentRef : R String c.currentRef c'.currentRef
  checkout : ∀ reference, R Unit (c.checkout reference) (c'.checkout reference)

end

namespace Compositional

variable {R : (α : Type) → ExceptT CollectionError m α → ExceptT CollectionError m' α → Prop}
  {c : Collaborators m} {c' : Collaborators m'} (h : Compositional R)

include h

theorem compileAndExtract (hc : RelatesBuilding R c c') (site : Site) :
    R Snapshot (compileAndExtract c site) (compileAndExtract c' site) :=
  h.bind (hc.clean site) fun _ => h.bind (hc.compile site) fun _ => hc.extract site

variable (c c') in
theorem fetchBaseline
    (hfetch : ∀ remote reference, R Unit (c.fetch remote reference) (c'.fetch remote reference))
    (b : Baseline) : R Unit (fetchBaseline c b) (fetchBaseline c' b) := by
  unfold AbiGate.fetchBaseline
  cases b.remote with
  | none => exact h.pure ()
  | some remote => exact hfetch remote b.reference

theorem collectInWorktree (hc : RelatesWorktree R c c') (b : Baseline) :
    R Snapshot (collectInWorktree c b) (collectInWorktree c' b) := by
  have hadded : ∀ place, R Snapshot (extractAdded c place) (extractAdded c' place) := fun place =>
    h.thenUndo
      (h.bind (hc.updateSubmodules place) fun _ =>
        h.compileAndExtract hc.toRelatesBuilding (.worktree place))
      (hc.removeWorktree place)
  rw [collectInWorktree_eq, collectInWorktree_eq]
  refine h.bind (h.fetchBaseline c c' hc.fetch b) fun _ => h.bind hc.openScratch fun place => ?_
  exact h.thenUndo (h.bind (hc.addWorktree b.revision place) fun _ => hadded place) hc.closeScratch

theorem extractSwitched (hc : RelatesBuilding R c c')
    (hcurrent : R String c.currentRef c'.currentRef) (b : Baseline) (before : String) :
    R Snapshot (extractSwitched c b before) (extractSwitched c' b before) := by
  have hbuilt := h.compileAndExtract hc .repository
  refine h.bind hcurrent fun now => ?_
  by_cases hnow : now = before
  · rw [if_pos hnow, if_pos hnow]
    exact h.bind (h.throw _) fun _ => hbuilt
  · rw [if_neg hnow, if_neg hnow]
    exact hbuilt

theorem collectByCheckout (hc : Relates R c c') (b : Baseline) :
    R Snapshot (collectByCheckout c b) (collectByCheckout c' b) := by
  have hback : ∀ before, R Unit (switchBack c before) (switchBack c' before) := fun before =>
    h.bind (hc.checkout before) fun _ => hc.clean .repository
  rw [collectByCheckout_eq, collectByCheckout_eq]
  refine h.bind hc.currentRef fun before => h.bind (h.fetchBaseline c c' hc.fetch b) fun _ => ?_
  refine h.bind (hc.checkout b.revision) fun _ => ?_
  exact h.thenUndo (h.extractSwitched hc.toRelatesBuilding hc.currentRef b before) (hback before)

theorem collect (hc : Relates R c c') (strategy : Strategy) (selector : Selector) :
    R Snapshot (collect c strategy selector) (collect c' strategy selector) := by
  cases selector with
  | workingTree => exact h.compileAndExtract hc.toRelatesBuilding .repository
  | baseline b =>
    cases strategy with
    | worktree => exact h.collectInWorktree hc.toRelatesWorktree b
    | checkout => exact h.collectByCheckout hc b

theorem collectPair (hc : Relates R c c') (settings : BaselineSettings) :
    R SnapshotPair (collectPair c settings) (collectPair c' settings) := by
  have hboth := h.bind (h.collect hc settings.strategy .workingTree) fun current =>
    h.bind (h.collect hc settings.strategy (.baseline settings.baseline)) fun baseline =>
      h.pure (SnapshotPair.mk current baseline)
  refine h.bind hc.isClean fun clean => ?_
  cases clean with
  | false => exact h.bind (h.throw _) fun _ => hboth
  | true => exact hboth

/-- **What relates every call relates the answers to a request.** -/
theorem perform (hc : Relates R c c') (settings : BaselineSettings) (request : Request) :
    R (SnapshotPair ⊕ Snapshot) (request.perform c settings) (request.perform c' settings) := by
  cases request with
  | pair => exact h.bind (h.collectPair hc settings) fun _ => h.pure _
  | one selector => exact h.bind (h.collect hc _ selector) fun _ => h.pure _

end Compositional

theorem Moves.compositional {σ : Type} (R : σ → σ → Prop) [IsPreorder σ R] :
    Compositional fun α (act _ : ExceptT CollectionError (StateM σ) α) => Moves R act where
  pure := .pure
  throw := .throw
  bind := .bind
  thenUndo := .thenUndo

end AbiGate
