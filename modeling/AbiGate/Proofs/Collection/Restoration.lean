/-
# A collection leaves the repository as it found it

Whatever the revisions hold, whichever calls fail, and whether or not checkouts have an effect: when
a collection ends, with a result or with an error, the repository is at the revision it was at, its
working tree holds what it held, and no directory for a separate working tree is left. There is
one exception: the checkout that was to bring the original revision back failed itself. Then the
collection ends with an error.

Most calls do nothing but log (`Same`). What a separate working tree takes stays beside the
repository (`Aside`) and is removed with its directory. A checkout is the only call that switches
the repository, so the proof follows the checkout strategy from the switch on.

Key definitions: `MemoryRepository.Same`, `MemoryRepository.Aside`, `MemoryRepository.Restored`,
`MemoryRepository.RestoreFailed`, `MemoryRepository.Settles`.
Key theorems: `MemoryRepository.outcome_checkout`, `MemoryRepository.moves_collectInWorktree`,
`MemoryRepository.settles_collectByCheckout`, `MemoryRepository.perform_restores`.
-/
import AbiGate.Collection.InMemory
import AbiGate.Proofs.Collection.Relating

namespace AbiGate

namespace MemoryRepository

/-- Nothing but the log differs. -/
def Same (r r' : MemoryRepository) : Prop :=
  r' = { r with log := r'.log }

/-- Nothing but the log and the place for a separate working tree differs. -/
def Aside (r r' : MemoryRepository) : Prop :=
  r' = { r with log := r'.log, scratchOpen := r'.scratchOpen, worktree := r'.worktree }

/-- Nothing but the log differs, the revision that the repository is at, and its content. -/
def Switched (revision : String) (tree : FileTree) (r r' : MemoryRepository) : Prop :=
  r' = { r with log := r'.log, head := revision, content := tree }

instance : IsPreorder MemoryRepository Same where
  refl _ := rfl
  trans r r' r'' h h' := by
    unfold Same at *
    rw [h', h]

instance : IsPreorder MemoryRepository Aside where
  refl _ := rfl
  trans r r' r'' h h' := by
    unfold Aside at *
    rw [h', h]

theorem Same.trans {r r' r'' : MemoryRepository} (h : Same r r') (h' : Same r' r'') : Same r r'' :=
  IsTrans.trans _ _ _ h h'

theorem Same.aside {r r' : MemoryRepository} (h : Same r r') : Aside r r' := by
  unfold Same Aside at *
  rw [h]

/-- The head and the content are those from before, and so is all else but the log; no directory
for a separate working tree is left, and nothing in it. -/
structure Restored (r r' : MemoryRepository) : Prop where
  aside : Aside r r'
  scratch : r.scratchOpen = false → r'.scratchOpen = false
  worktree : r.worktree = none → r'.worktree = none

instance : IsPreorder MemoryRepository Restored where
  refl r := ⟨refl r, id, id⟩
  trans _ _ _ h h' :=
    ⟨IsTrans.trans _ _ _ h.aside h'.aside, h'.scratch ∘ h.scratch, h'.worktree ∘ h.worktree⟩

theorem Same.restored {r r' : MemoryRepository} (h : Same r r') : Restored r r' where
  aside := h.aside
  scratch := by
    intro hs
    rw [h]
    exact hs
  worktree := by
    intro hw
    rw [h]
    exact hw

/-- The working tree holds what the revision holds that the repository is at. -/
def Faithful (r : MemoryRepository) : Prop :=
  ∀ tree, r.trees.get? r.head = some tree → tree = r.content

/-- The repository with a call logged. -/
def logged (r : MemoryRepository) (call : Call) : MemoryRepository :=
  { r with log := call :: r.log }

variable (s : ExtractionSettings)

/-- The repository was switched to a revision, and then the checkout of the original one failed. -/
def RestoreFailed (r r' : MemoryRepository) : Prop :=
  ∃ revision tree switched e, r.trees.get? revision = some tree ∧
    Switched revision tree r switched ∧
    outcome ((collaborators s).checkout r.head) switched = (.error e, r')

/-! ### Single calls -/

variable {α : Type}

theorem outcome_calling (call : Call) (act : Action α) (r : MemoryRepository) :
    outcome (calling call act) r =
      match (r.logged call).failureOf? call with
      | some f => (.error (.tool { command := call.line, fault := .refused f.reason }),
          r.logged call)
      | none => outcome act (r.logged call) := by
  unfold calling
  rw [outcome_modify_bind, outcome_get_bind]
  change outcome (match (r.logged call).failureOf? call with
    | some f => throw (.tool { command := call.line, fault := .refused f.reason })
    | none => act) (r.logged call) = _
  cases (r.logged call).failureOf? call <;> rfl

/-- Where no call is made to fail, it is logged and acts. -/
theorem outcome_calling_of_quiet {r : MemoryRepository} (h : r.failures = []) (call : Call)
    (act : Action α) : outcome (calling call act) r = outcome act (r.logged call) := by
  have hnone : (r.logged call).failureOf? call = none := by
    simp [failureOf?, logged, h]
  rw [outcome_calling, hnone]

theorem moves_calling {R : MemoryRepository → MemoryRepository → Prop}
    [IsPreorder MemoryRepository R] {call : Call} {act : Action α}
    (hlogged : ∀ r, R r (r.logged call)) (hact : Moves R act) : Moves R (calling call act) := by
  intro r
  rw [outcome_calling]
  split
  · exact hlogged r
  · exact IsTrans.trans _ _ _ (hlogged r) (hact _)

theorem moves_isClean : Moves Same (collaborators s).isClean :=
  moves_calling (fun _ => rfl) fun _ => rfl

theorem moves_currentRef : Moves Same (collaborators s).currentRef :=
  moves_calling (fun _ => rfl) fun _ => rfl

theorem moves_fetch (remote reference : String) :
    Moves Same ((collaborators s).fetch remote reference) :=
  moves_calling (fun _ => rfl) fun _ => rfl

theorem moves_updateSubmodules (place : Path) :
    Moves Same ((collaborators s).updateSubmodules place) :=
  moves_calling (fun _ => rfl) fun _ => rfl

theorem moves_clean (site : Site) : Moves Same ((collaborators s).clean site) :=
  moves_calling (fun _ => rfl) fun _ => rfl

theorem moves_compile (site : Site) : Moves Same ((collaborators s).compile site) :=
  moves_calling (fun _ => rfl) fun _ => rfl

theorem moves_extract (site : Site) : Moves Same ((collaborators s).extract site) := by
  intro r
  show Same r (outcome (get >>= _) r).2
  rw [outcome_get_bind]
  split <;> exact refl r

/-- A call that needs the tree of a revision fails at once or goes on with that tree. -/
theorem outcome_treeOf_bind (call : Call) (revision : String) (f : FileTree → Action α)
    (r : MemoryRepository) :
    outcome (treeOf call revision >>= f) r =
      match r.trees.get? revision with
      | some tree => outcome (f tree) r
      | none =>
        (.error (.tool { command := call.line, fault := .refused "unknown revision" }), r) := by
  unfold treeOf
  rw [bind_assoc, outcome_get_bind]
  cases r.trees.get? revision <;> rfl

theorem moves_addWorktree (revision : String) (place : Path) :
    Moves Aside ((collaborators s).addWorktree revision place) := by
  refine moves_calling (fun _ => rfl) fun r => ?_
  unfold fillWorktree
  rw [outcome_treeOf_bind]
  split
  · exact rfl
  · exact refl r

theorem moves_removeWorktree (place : Path) :
    Moves Aside ((collaborators s).removeWorktree place) :=
  moves_calling (fun _ => rfl) fun _ => rfl

theorem outcome_openScratch (r : MemoryRepository) :
    outcome (collaborators s).openScratch r =
      if r.scratchAvailable then (.ok r.worktreePath, { r with scratchOpen := true })
      else (.error .scratch, r) := by
  change outcome (get >>= _) r = _
  rw [outcome_get_bind]
  by_cases havailable : r.scratchAvailable = true
  · rw [if_pos havailable, if_neg (by simp [havailable])]
    rfl
  · rw [if_neg havailable, if_pos (by simp [havailable])]
    rfl

theorem moves_openScratch : Moves Aside (collaborators s).openScratch := by
  intro r
  change Aside r (outcome (get >>= _) r).2
  rw [outcome_get_bind]
  split <;> exact rfl

theorem same_of_openScratch_error {r r' : MemoryRepository} {e : CollectionError}
    (h : outcome (collaborators s).openScratch r = (.error e, r')) : Same r r' := by
  change outcome (get >>= _) r = _ at h
  rw [outcome_get_bind] at h
  split at h
  · cases h
    exact refl r
  · cases h

/-- A repository says at which revision it is, if it answers. -/
theorem outcome_currentRef {r r' : MemoryRepository} {reference : String}
    (h : outcome (collaborators s).currentRef r = (.ok reference, r')) : reference = r.head := by
  change outcome (calling .currentRef _) r = _ at h
  rw [outcome_calling] at h
  split at h
  · cases h
  · cases h; rfl

/-- A checkout has no effect, or else it switches the repository to a revision that has a tree. -/
theorem outcome_checkout {r r' : MemoryRepository} {reference : String}
    {result : Except CollectionError Unit}
    (h : outcome ((collaborators s).checkout reference) r = (result, r')) :
    (Same r r' ∧ (result = .ok () → r.stuck = true)) ∨
    (∃ tree, result = .ok () ∧ r.stuck = false ∧ r.trees.get? reference = some tree ∧
      Switched reference tree r r') := by
  change outcome (calling (.checkout reference) (switchTo reference)) r = _ at h
  rw [outcome_calling] at h
  split at h
  · cases h
    exact .inl ⟨rfl, nofun⟩
  · unfold switchTo at h
    rw [outcome_get_bind] at h
    by_cases hstuck : (r.logged (.checkout reference)).stuck = true
    · rw [if_pos hstuck] at h
      cases h
      exact .inl ⟨rfl, fun _ => hstuck⟩
    · rw [if_neg hstuck] at h
      change outcome (treeOf _ reference >>= _) _ = _ at h
      rw [outcome_treeOf_bind] at h
      split at h
      · next tree htree =>
        cases h
        exact .inr ⟨tree, rfl, eq_false_of_ne_true hstuck, htree, rfl⟩
      · cases h
        exact .inl ⟨rfl, nofun⟩

/-- Where no call is made to fail, a revision that has a tree can be checked out. -/
theorem outcome_checkout_of_quiet {r : MemoryRepository} (h : r.failures = []) {reference : String}
    {tree : FileTree} (htree : r.trees.get? reference = some tree) :
    outcome ((collaborators s).checkout reference) r =
      (.ok (),
        if r.stuck then r.logged (.checkout reference)
        else { r.logged (.checkout reference) with content := tree, head := reference }) := by
  have htree' : (r.logged (.checkout reference)).trees.get? reference = some tree := htree
  change outcome (calling (.checkout reference) (switchTo reference)) r = _
  rw [outcome_calling_of_quiet h]
  unfold switchTo
  rw [outcome_get_bind]
  by_cases hstuck : (r.logged (.checkout reference)).stuck = true
  · rw [if_pos hstuck, if_pos (show r.stuck = true from hstuck)]
    rfl
  · rw [if_neg hstuck, if_neg (show ¬r.stuck = true from hstuck)]
    change outcome (treeOf _ reference >>= _) _ = _
    rw [outcome_treeOf_bind, htree']
    rfl

/-! ### A separate working tree -/

theorem moves_fetchBaseline (b : Baseline) : Moves Same (fetchBaseline (collaborators s) b) :=
  (Moves.compositional Same).fetchBaseline _ (collaborators s) (moves_fetch s) b

theorem moves_building :
    RelatesBuilding (fun α (act _ : Action α) => Moves Same act) (collaborators s)
      (collaborators s) where
  clean := moves_clean s
  compile := moves_compile s
  extract := moves_extract s

theorem moves_compileAndExtract (site : Site) :
    Moves Same (compileAndExtract (collaborators s) site) :=
  (Moves.compositional Same).compileAndExtract (moves_building s) site

theorem Aside.restored {r r' : MemoryRepository} (h : Aside r r') :
    Restored r { r' with scratchOpen := false, worktree := none } where
  aside := by
    unfold Aside at *
    rw [h]
  scratch _ := rfl
  worktree _ := rfl

theorem moves_collectInWorktree (b : Baseline) :
    Moves Restored (collectInWorktree (collaborators s) b) := by
  rw [collectInWorktree_eq]
  refine .bind (fun r => (moves_fetchBaseline s b r).restored) fun _ r => ?_
  rcases hopen : outcome (collaborators s).openScratch r with ⟨e | place, opened⟩
  · rw [outcome_bind_of_error hopen]
    exact (same_of_openScratch_error s hopen).restored
  · rw [outcome_bind_of_ok hopen, outcome_thenUndo, outcome_lift]
    have hbuild : Moves Aside (do
        (collaborators s).updateSubmodules place
        compileAndExtract (collaborators s) (.worktree place)) :=
      fun r => ((moves_updateSubmodules s place).bind (fun _ =>
        moves_compileAndExtract s _) r).aside
    have hadd := (moves_addWorktree s b.revision place).bind fun _ =>
      hbuild.thenUndo (moves_removeWorktree s place)
    exact Aside.restored
      (IsTrans.trans _ _ _ ((moves_openScratch s).of_outcome hopen) (hadd opened))

/-! ### A checkout -/

section

variable {revision : String} {tree : FileTree} {r r' r'' : MemoryRepository}

theorem Switched.trans_same (h : Switched revision tree r r') (h' : Same r' r'') :
    Switched revision tree r r'' := by
  unfold Switched Same at *
  rw [h', h]

theorem Same.trans_switched (h : Same r r') (h' : Switched revision tree r' r'') :
    Switched revision tree r r'' := by
  unfold Switched Same at *
  rw [h', h]

/-- Of two switches, the second one counts. -/
theorem Switched.trans {revision' : String} {tree' : FileTree}
    (h : Switched revision tree r r') (h' : Switched revision' tree' r' r'') :
    Switched revision' tree' r r'' := by
  unfold Switched at *
  rw [h', h]

/-- A switch to where the repository is changes nothing. -/
theorem Switched.same (h : Switched r.head r.content r r') : Same r r' := h

end

/-- A repository from which a checkout of a revision led here, with or without effect. -/
def Reached (home : MemoryRepository) (revision : String) (r : MemoryRepository) : Prop :=
  Same home r ∨ ∃ tree, home.stuck = false ∧ home.trees.get? revision = some tree ∧
    Switched revision tree home r

namespace Reached

variable {s} {home r r' : MemoryRepository} {revision : String}

theorem trans_same (h : Reached home revision r) (h' : Same r r') : Reached home revision r' := by
  rcases h with hsame | ⟨tree, hfree, htree, hswitched⟩
  · exact .inl (hsame.trans h')
  · exact .inr ⟨tree, hfree, htree, hswitched.trans_same h'⟩

theorem of_checkout (h : Same home r)
    (hok : outcome ((collaborators s).checkout revision) r = (.ok (), r')) :
    Reached home revision r' := by
  rcases outcome_checkout s hok with ⟨hsame, -⟩ | ⟨tree, -, hfree, htree, hswitched⟩
  · exact .inl (h.trans hsame)
  · rw [h] at hfree htree
    exact .inr ⟨tree, hfree, htree, h.trans_switched hswitched⟩

/-- From there, a checkout of the original revision leads home if it does not fail. -/
theorem same_of_checkout (h : Reached home revision r) (hhome : Faithful home)
    (hok : outcome ((collaborators s).checkout home.head) r = (.ok (), r')) : Same home r' := by
  rcases outcome_checkout s hok with ⟨hsame, hstuck⟩ | ⟨tree, -, -, htree, hback⟩
  · rcases h with hnone | ⟨_, hfree, -, hswitched⟩
    · exact hnone.trans hsame
    · -- A repository that switched is not stuck, so the checkout has an effect.
      have hstuck' : home.stuck = true := by
        rw [← hstuck rfl, hswitched]
      rw [hfree] at hstuck'
      cases hstuck'
  · have hhead : Switched home.head tree home r' := by
      rcases h with hnone | ⟨_, -, -, hswitched⟩
      · exact hnone.trans_switched hback
      · exact hswitched.trans hback
    have htrees : r.trees = home.trees := by
      rcases h with hnone | ⟨_, -, -, hswitched⟩
      · rw [hnone]
      · rw [hswitched]
    rw [htrees] at htree
    rw [hhome tree htree] at hhead
    exact hhead.same

/-- If it fails, then the repository was switched, or it is as it was. -/
theorem of_checkout_error {e : CollectionError} (h : Reached home revision r)
    (herror : outcome ((collaborators s).checkout home.head) r = (.error e, r')) :
    Same home r' ∨ RestoreFailed s home r' := by
  rcases outcome_checkout s herror with ⟨hsame, -⟩ | ⟨_, hok, -⟩
  · rcases h with hnone | ⟨tree, -, htree, hswitched⟩
    · exact .inl (hnone.trans hsame)
    · exact .inr ⟨revision, tree, r, e, htree, hswitched, herror⟩
  · cases hok

end Reached

/-- From a state that only its log tells from `home`, and whatever comes of it, an action leaves the
repository as `home` was, unless the strategy is to check out and the checkout that was to bring
the original revision back failed; then the action failed too. -/
def Settles (home : MemoryRepository) (strategy : Strategy) (act : Action α) : Prop :=
  ∀ r, Same home r → Restored home (outcome act r).2 ∨
    strategy = .checkout ∧ RestoreFailed s home (outcome act r).2 ∧
      ∃ e, (outcome act r).1 = .error e

namespace Settles

variable {β : Type} {s} {home : MemoryRepository} {strategy : Strategy} {x : Action α}
  {f : α → Action β}

theorem of_moves (h : Moves Restored x) : Settles s home strategy x :=
  fun r hr => .inl (IsTrans.trans _ _ _ hr.restored (h r))

theorem bind (hx : Moves Same x)
    (hf : ∀ a r r', Same home r → outcome x r = (.ok a, r') → Settles s home strategy (f a)) :
    Settles s home strategy (x >>= f) := by
  intro r hr
  rcases h : outcome x r with ⟨e | a, r'⟩
  · rw [outcome_bind_of_error h]
    exact .inl (hr.trans (hx.of_outcome h)).restored
  · rw [outcome_bind_of_ok h]
    exact hf a r r' hr h r' (hr.trans (hx.of_outcome h))

theorem bind_pure (hx : Settles s home strategy x) (g : α → β) :
    Settles s home strategy (x >>= fun a => pure (g a)) := by
  intro r hr
  have hsettled := hx r hr
  rcases h : outcome x r with ⟨e | a, r'⟩
  · rw [outcome_bind_of_error h]
    rw [h] at hsettled
    rcases hsettled with hrestored | ⟨hstrategy, hfailed, -⟩
    · exact .inl hrestored
    · exact .inr ⟨hstrategy, hfailed, e, rfl⟩
  · rw [outcome_bind_of_ok h]
    rw [h] at hsettled
    rcases hsettled with hrestored | ⟨-, -, e, he⟩
    · exact .inl hrestored
    · cases he

end Settles

theorem moves_extractSwitched (b : Baseline) (before : String) :
    Moves Same (extractSwitched (collaborators s) b before) :=
  (Moves.compositional Same).extractSwitched (moves_building s) (moves_currentRef s) b before

/-- The second half of the checkout strategy leads home, from a repository that was switched and
from one that was not. -/
theorem switchBack_restores {home r : MemoryRepository} {revision : String}
    (hhome : Faithful home) (h : Reached home revision r) :
    Restored home (outcome (switchBack (collaborators s) home.head) r).2 ∨
      RestoreFailed s home (outcome (switchBack (collaborators s) home.head) r).2 ∧
        ∃ e, (outcome (switchBack (collaborators s) home.head) r).1 = .error e := by
  unfold switchBack
  rcases hback : outcome ((collaborators s).checkout home.head) r with ⟨e | _, r'⟩
  · rw [outcome_bind_of_error hback]
    rcases h.of_checkout_error hback with hsame | hfailed
    · exact .inl hsame.restored
    · exact .inr ⟨hfailed, e, rfl⟩
  · rw [outcome_bind_of_ok hback]
    have hsame := h.same_of_checkout hhome hback
    exact .inl (hsame.trans (moves_clean s .repository r')).restored

theorem settles_collectByCheckout {home : MemoryRepository} (hhome : Faithful home) (b : Baseline) :
    Settles s home .checkout (collectByCheckout (collaborators s) b) := by
  rw [collectByCheckout_eq]
  refine .bind (moves_currentRef s) fun before r _ hr hcurrent => ?_
  obtain rfl : before = home.head := by
    rw [outcome_currentRef s hcurrent, hr]
  refine .bind (moves_fetchBaseline s b) fun _ _ _ _ _ r hr => ?_
  rcases hcheckout : outcome ((collaborators s).checkout b.revision) r with ⟨e | _, r'⟩
  · rw [outcome_bind_of_error hcheckout]
    rcases outcome_checkout s hcheckout with ⟨hsame, -⟩ | ⟨_, hok, -⟩
    · exact .inl (hr.trans hsame).restored
    · cases hok
  · rw [outcome_bind_of_ok hcheckout, outcome_thenUndo]
    have hreached := (Reached.of_checkout hr hcheckout).trans_same
      (moves_extractSwitched s b home.head r')
    rcases switchBack_restores s hhome hreached with hrestored | ⟨hfailed, e, he⟩
    · exact .inl hrestored
    · refine .inr ⟨rfl, hfailed, ?_⟩
      rw [he]
      exact resultOf_error_right _

/-! ### Every request -/

theorem settles_collect {home : MemoryRepository} (hhome : Faithful home) (strategy : Strategy)
    (selector : Selector) :
    Settles s home strategy (collect (collaborators s) strategy selector) := by
  cases selector with
  | workingTree => exact .of_moves fun r => (moves_compileAndExtract s .repository r).restored
  | baseline b =>
    cases strategy with
    | worktree => exact .of_moves (moves_collectInWorktree s b)
    | checkout => exact settles_collectByCheckout s hhome b

theorem settles_collectPair {home : MemoryRepository} (hhome : Faithful home)
    (settings : BaselineSettings) :
    Settles s home settings.strategy (collectPair (collaborators s) settings) := by
  refine .bind (moves_isClean s) fun clean _ _ _ _ => ?_
  split
  · exact .of_moves fun r => refl r
  · refine .bind (moves_compileAndExtract s .repository) fun current _ _ _ _ => ?_
    exact (settles_collect s hhome _ _).bind_pure (SnapshotPair.mk current)

/-- **A collection leaves the repository as it found it**, unless the checkout that was to bring the
original revision back failed; then the collection fails. -/
theorem perform_restores (settings : BaselineSettings) (request : Request) (r : MemoryRepository)
    (hr : Faithful r) :
    let ended := outcome (request.perform (collaborators s) settings) r
    Restored r ended.2 ∨
      settings.strategy = .checkout ∧ RestoreFailed s r ended.2 ∧ ∃ e, ended.1 = .error e := by
  intro ended
  cases request with
  | pair => exact (settles_collectPair s hr settings).bind_pure Sum.inl r rfl
  | one selector => exact (settles_collect s hr _ selector).bind_pure Sum.inr r rfl

/-- A directory for contracts, with a note in it. -/
def notedTree (note : String) : FileTree :=
  FileTree.empty.put ["contracts", "README.md"] (.file (Text.Utf8.encode note))

/-- A repository with two revisions, at the first of them. -/
def notedRepository : MemoryRepository where
  trees := .ofList [("main", notedTree "new"), ("origin/staging", notedTree "old")]
  head := "main"
  content := notedTree "new"
  path := ⟨"/repo"⟩
  worktreePath := ⟨"/scratch/tree"⟩

/-- A repository that was switched for the baseline is back. -/
theorem perform_restores_noted :
    let ended := outcome (Request.pair.perform (collaborators {}) { strategy := .checkout })
      notedRepository
    Faithful notedRepository ∧ ended.1.isOk = true ∧ ended.2.log.length = 11 ∧
      Restored notedRepository ended.2 := by
  intro ended
  have hr : Faithful notedRepository := by
    intro tree htree
    have hmain : notedRepository.trees.get? "main" = some (notedTree "new") := by
      decide +kernel
    exact Option.some.inj (htree.symm.trans hmain)
  have hok : ended.1.isOk = true := by
    decide +kernel
  refine ⟨hr, hok, by decide +kernel, ?_⟩
  have hsettled := perform_restores {} { strategy := .checkout } .pair notedRepository hr
  rcases hsettled with h | ⟨-, -, e, he⟩
  · exact h
  · have herror : ended.1 = .error e := he
    rw [herror] at hok
    cases hok

end MemoryRepository

end AbiGate
