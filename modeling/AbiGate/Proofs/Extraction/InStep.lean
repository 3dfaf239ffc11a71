/-
# Extractions in step

Two actions on states are in step if they lead from states that belong together to the same result
and to states that belong together again. Extractions that take the same sources are in step if what
inspects the contracts is.

So an extraction never knows more of what inspects its contracts than a row of listings: whatever
acts on a state, its answer to a contract is told by the contracts that were asked for before
(`Listings.of`), and the extraction comes to the same by these listings.

Key definitions: `InStep`, `Inspector.InStep`, `Listings.of`.
Key theorems: `InStep.bind`, `InStep.foldlM_flatMap`, `inStep_addSource`, `outcome_extract_eq`.
-/
import AbiGate.Proofs.Collection.Outcome
import AbiGate.Proofs.Extraction.Progress

namespace AbiGate

variable {ε σ τ α β γ δ : Type} {R : σ → τ → Prop}

/-- From states that belong together the actions come to the same, and to such states again. -/
def InStep (R : σ → τ → Prop) (x : ExceptT ε (StateM σ) α) (y : ExceptT ε (StateM τ) α) : Prop :=
  ∀ w v, R w v → (outcome x w).1 = (outcome y v).1 ∧ R (outcome x w).2 (outcome y v).2

/-! ### Constructs -/

namespace InStep

theorem pure (a : α) : InStep R (pure a : ExceptT ε (StateM σ) α) (pure a) :=
  fun _ _ h => ⟨rfl, h⟩

theorem throw (e : ε) : InStep R (throw e : ExceptT ε (StateM σ) α) (throw e) :=
  fun _ _ h => ⟨rfl, h⟩

theorem bind {x : ExceptT ε (StateM σ) α} {y : ExceptT ε (StateM τ) α}
    {f : α → ExceptT ε (StateM σ) β} {g : α → ExceptT ε (StateM τ) β} (h : InStep R x y)
    (hf : ∀ a, InStep R (f a) (g a)) : InStep R (x >>= f) (y >>= g) := by
  intro w v hwv
  obtain ⟨hresult, hstates⟩ := h w v hwv
  rcases hx : outcome x w with ⟨result, w'⟩
  rcases hy : outcome y v with ⟨result', v'⟩
  rw [hx, hy] at hresult hstates
  obtain rfl : result = result' := hresult
  cases result with
  | error e =>
    rw [outcome_bind_of_error hx, outcome_bind_of_error hy]
    exact ⟨rfl, hstates⟩
  | ok a =>
    rw [outcome_bind_of_ok hx, outcome_bind_of_ok hy]
    exact hf a w' v' hstates

theorem lift_bind {act : StateM σ α} {act' : StateM τ α} {f : α → ExceptT ε (StateM σ) β}
    {g : α → ExceptT ε (StateM τ) β}
    (h : ∀ w v, R w v → (act w).1 = (act' v).1 ∧ R (act w).2 (act' v).2)
    (hf : ∀ a, InStep R (f a) (g a)) :
    InStep R (ExceptT.lift act >>= f) (ExceptT.lift act' >>= g) := by
  refine bind (fun w v hwv => ?_) hf
  obtain ⟨hresult, hstates⟩ := h w v hwv
  exact ⟨congrArg Except.ok hresult, hstates⟩

theorem adapt {ε' : Type} {x : ExceptT ε (StateM σ) α} {y : ExceptT ε (StateM τ) α}
    (h : InStep R x y) (g : ε → ε') : InStep R (ExceptT.adapt g x) (ExceptT.adapt g y) := by
  intro w v hwv
  obtain ⟨hresult, hstates⟩ := h w v hwv
  exact ⟨congrArg (Except.mapError g) hresult, hstates⟩

theorem discard {x : ExceptT ε (StateM σ) α} {y : ExceptT ε (StateM τ) α} (h : InStep R x y) :
    InStep R (discard x) (discard y) := by
  rw [discard_eq_bind, discard_eq_bind]
  exact h.bind fun _ => pure _

theorem thenUndo {x : ExceptT ε (StateM σ) α} {y : ExceptT ε (StateM τ) α}
    {undo : ExceptT ε (StateM σ) Unit} {undo' : ExceptT ε (StateM τ) Unit} (h : InStep R x y)
    (hundo : InStep R undo undo') : InStep R (thenUndo x undo) (thenUndo y undo') := by
  intro w v hwv
  obtain ⟨hresult, hstates⟩ := h w v hwv
  obtain ⟨hundone, hleft⟩ := hundo _ _ hstates
  rw [outcome_thenUndo, outcome_thenUndo, hresult, hundone]
  exact ⟨rfl, hleft⟩

theorem foldlM {f : β → α → ExceptT ε (StateM σ) β} {g : β → α → ExceptT ε (StateM τ) β}
    (h : ∀ b a, InStep R (f b a) (g b a)) : ∀ (l : List α) (b : β),
      InStep R (l.foldlM f b) (l.foldlM g b)
  | [], b => pure b
  | a :: l, b => (h b a).bind fun b' => foldlM h l b'

/-- A loop is in step with a loop over what stands for each of its items. -/
theorem foldlM_flatMap {f : β → α → ExceptT ε (StateM σ) β} {g : β → γ → ExceptT ε (StateM τ) β}
    {items : α → List γ} {l : List α}
    (h : ∀ a ∈ l, ∀ b, InStep R (f b a) ((items a).foldlM g b)) (b : β) :
    InStep R (l.foldlM f b) ((l.flatMap items).foldlM g b) := by
  induction l generalizing b with
  | nil => exact pure b
  | cons a rest ih =>
    obtain ⟨hfirst, hrest⟩ := List.forall_mem_cons.1 h
    rw [List.foldlM_cons, List.flatMap_cons, List.foldlM_append]
    exact (hfirst b).bind fun b' => ih hrest b'

end InStep

/-- A state and itself, as long as it has a property. -/
def Same (holds : σ → Prop) (w v : σ) : Prop :=
  w = v ∧ holds w

/-- What keeps the property is in step with itself. -/
theorem InStep.lift_same {holds : σ → Prop} {act : StateM σ α}
    {f g : α → ExceptT ε (StateM σ) β} (h : ∀ w, holds w → holds (act w).2)
    (hf : ∀ a, InStep (Same holds) (f a) (g a)) :
    InStep (Same holds) (ExceptT.lift act >>= f) (ExceptT.lift act >>= g) := by
  refine .lift_bind ?_ hf
  rintro w _ ⟨rfl, hw⟩
  exact ⟨rfl, rfl, h w hw⟩

/-! ### Extractions -/

/-- In states that belong together both give the same answer, and leave such states again. -/
def Inspector.InStep (R : σ → τ → Prop) (inspect : Inspector (StateM σ))
    (inspect' : Inspector (StateM τ)) : Prop :=
  ∀ contract w v, R w v → (inspect contract w).1 = (inspect' contract v).1 ∧
    R (inspect contract w).2 (inspect' contract v).2

theorem inStep_same {holds : σ → Prop} {inspect : Inspector (StateM σ)}
    (h : ∀ contract w, holds w → holds (inspect contract w).2) :
    Inspector.InStep (Same holds) inspect inspect := by
  rintro contract w _ ⟨rfl, hw⟩
  exact ⟨rfl, rfl, h contract w hw⟩

section

variable {inspect : Inspector (StateM σ)} {inspect' : Inspector (StateM τ)}
  (h : Inspector.InStep R inspect inspect') (s : ExtractionSettings) (root : Path)
  (snapshot : Snapshot)

include h

theorem inStep_addTracked (t : Tracked) :
    InStep R (addTracked s inspect snapshot t) (addTracked s inspect' snapshot t) := by
  unfold addTracked
  split
  · exact .throw _
  · refine .lift_bind (h t.path) fun answer => ?_
    cases answer with
    | error reason => exact .throw _
    | ok rows =>
      cases hc : t.contract s.keying rows with
      | error e => simp only [hc]; exact .throw _
      | ok c =>
        cases hput : snapshot.insert t.name c with
        | error e => simp only [hc, hput]; exact .throw _
        | ok between => simp only [hc, hput]; exact .pure _

theorem inStep_addSource (source : Source) :
    InStep R (addSource s root inspect snapshot source)
      (addSource s root inspect' snapshot source) := by
  unfold addSource
  split
  · exact .throw _
  · exact .pure _
  · exact inStep_addTracked h s snapshot _

theorem inStep_extract (r : SourceRoot) : InStep R (extract s r inspect) (extract s r inspect') :=
  .foldlM (inStep_addSource h s r.path) (r.sources s) .empty

end

/-! ### Inspectors as listings -/

section

variable (inspect : Inspector (StateM σ)) (w : σ)

/-- The state after these contracts were inspected. -/
def Inspector.stateAfter (asked : List Path) : σ :=
  asked.foldl (fun w contract => (inspect contract w).2) w

/-- What is listed by an inspector that starts from a state. -/
def Listings.of : Listings := fun asked contract =>
  (inspect contract (Inspector.stateAfter inspect w asked)).1

theorem inStep_listings :
    Inspector.InStep (fun w' asked => w' = Inspector.stateAfter inspect w asked) inspect
      (Listings.of inspect w).inspector := by
  rintro contract _ asked rfl
  refine ⟨rfl, ?_⟩
  show _ = Inspector.stateAfter inspect w (asked ++ [contract])
  unfold Inspector.stateAfter
  rw [List.foldl_append]
  rfl

/-- **An extraction comes to what it comes to by the listings of its inspector,** and leaves the
state after the contracts were inspected that it asked for. -/
theorem outcome_extract_eq (s : ExtractionSettings) (r : SourceRoot) :
    outcome (extract s r inspect) w =
      ((extraction s r (Listings.of inspect w)).1,
        Inspector.stateAfter inspect w (extraction s r (Listings.of inspect w)).2) := by
  obtain ⟨hresult, hstates⟩ := inStep_extract (inStep_listings inspect w) s r w [] rfl
  exact Prod.ext hresult hstates

end

end AbiGate
