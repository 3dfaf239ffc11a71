/-
# Which failure is reported

A collection goes on behind a failure: what was brought up is undone, and that may fail as well. The
failures of a log are those of its calls, in their order; besides, a repository that is not clean
counts as one, and so does a repository that is said to be where it was before the baseline was
checked out. A collection ends with an error exactly if its log has a failure, and the error is
that of the first one. So what fails when all is undone never hides an earlier failure, and it is
reported if nothing failed before.

Key definitions: `Event.failureAfter?`, `failures`, `Suited`.
Key theorems: `Cut.failuresAfter_eq`, `Script.Logs.head?_failures`, `perform_error_iff`.
-/
import AbiGate.Proofs.Collection.Protocol
import AbiGate.Proofs.Collection.Undo

namespace AbiGate

/-! ### The failures of a log -/

namespace Event

/-- The error of a call that failed. -/
def error? : Event → Option CollectionError
  | isClean (.error e) | currentRef (.error e) | fetch _ _ (.error e) | checkout _ (.error e)
  | openScratch (.error e) | addWorktree _ _ (.error e) | removeWorktree _ (.error e)
  | updateSubmodules _ (.error e) | clean _ (.error e) | compile _ (.error e)
  | extract _ (.error e) => some e
  | _ => none

/-- The failure that it is to be at a revision, behind these calls: a baseline was checked out, and
the repository was at that revision before. -/
def unswitched? (before : List Event) (now : String) : Option CollectionError :=
  match firstCheckout? before with
  | some (reference, .ok ()) =>
    if now ∈ before.filterMap reported? then some (.checkoutDidNotSwitch reference now) else none
  | _ => none

/-- Why a call counts as a failure behind these calls, if it does. -/
def failureAfter? (before : List Event) : Event → Option CollectionError
  | isClean (.ok false) => some .dirtyWorkingTree
  | currentRef (.ok now) => unswitched? before now
  | event => event.error?

end Event

/-- The failures among calls that come behind others, in their order. -/
def failuresAfter (before : List Event) : List Event → List CollectionError
  | [] => []
  | event :: rest =>
    (event.failureAfter? before).toList ++ failuresAfter (before ++ [event]) rest

/-- The failures of a log, in their order. -/
def failures (log : List Event) : List CollectionError :=
  failuresAfter [] log

theorem failuresAfter_append (before events events' : List Event) :
    failuresAfter before (events ++ events') =
      failuresAfter before events ++ failuresAfter (before ++ events) events' := by
  induction events generalizing before with
  | nil => simp [failuresAfter]
  | cons event rest ih => simp [failuresAfter, ih]

/-- A directory is closed without failure. -/
theorem failuresAfter_closing (before calls : List Event) :
    failuresAfter before (closing calls) = [] := by
  unfold closing
  split <;> rfl

/-! ### Steps -/

/-- The error of a result. -/
def errorsOf : Except CollectionError Unit → List CollectionError
  | .error e => [e]
  | .ok () => []

theorem head?_errorsOf_append (result result' : Except CollectionError Unit) :
    (errorsOf result ++ errorsOf result').head? = (errorsOf (resultOf result result')).head? := by
  cases result <;> cases result' <;> rfl

/-- A step has its place behind these calls: the original revision is asked for before a checkout,
and when it is asked for again it is known which one was reported, and which one checked out. -/
def Step.Suits (before : List Event) : Step → Prop
  | .original _ => firstCheckout? before = none
  | .switched reference first =>
    firstCheckout? before = some (reference, .ok ()) ∧
      before.filterMap Event.reported? = [first]
  | _ => True

theorem Step.Taken.toList_failureAfter? {step : Step} {before : List Event} {event : Event}
    {result : Except CollectionError Unit} (h : step.Taken event result) (hs : step.Suits before) :
    (event.failureAfter? before).toList = errorsOf result := by
  cases h with
  | original =>
    have hnone : firstCheckout? before = none := hs
    simp [Event.failureAfter?, Event.unswitched?, hnone, errorsOf]
  | switched hnow =>
    obtain ⟨hchecked, hreported⟩ := hs
    simp [Event.failureAfter?, Event.unswitched?, hchecked, hreported, hnow, errorsOf]
  | not_switched =>
    obtain ⟨hchecked, hreported⟩ := hs
    simp [Event.failureAfter?, Event.unswitched?, hchecked, hreported, errorsOf]
  | extract answer => cases answer <;> rfl
  | fetch | checkout | addWorktree | removeWorktree | updateSubmodules | clean | compile =>
    cases result <;> rfl
  | _ => rfl

/-- Each step has its place behind the calls before it, as far as these succeed. -/
def Suited (before : List Event) : List Step → Prop
  | [] => True
  | step :: rest =>
    step.Suits before ∧ ∀ event, step.Taken event (.ok ()) → Suited (before ++ [event]) rest

/-- Steps that are cut at a failure log that failure and no other. -/
theorem Cut.failuresAfter_eq {steps : List Step} {events : List Event}
    {result : Except CollectionError Unit} (h : Cut steps events result) {before : List Event}
    (hs : Suited before steps) : failuresAfter before events = errorsOf result := by
  induction h generalizing before with
  | done => rfl
  | failed htaken =>
    simp only [failuresAfter, htaken.toList_failureAfter? hs.1, List.append_nil]
  | passed htaken _ ih =>
    simp only [failuresAfter, htaken.toList_failureAfter? hs.1, ih (hs.2 _ htaken)]
    rfl

theorem Suited.append {steps steps' : List Step} {before : List Event} (h : Suited before steps)
    (h' : ∀ events, Cut steps events (.ok ()) → Suited (before ++ events) steps') :
    Suited before (steps ++ steps') := by
  induction steps generalizing before with
  | nil => simpa using h' [] .done
  | cons step rest ih =>
    refine ⟨h.1, fun event htaken => ih (h.2 event htaken) fun events hcut => ?_⟩
    rw [List.append_assoc]
    exact h' (event :: events) (.passed htaken hcut)

/-- A step that fits anywhere. -/
def Step.Anywhere (step : Step) : Prop :=
  ∀ before, step.Suits before

theorem Suited.of_anywhere {steps : List Step} (h : ∀ step ∈ steps, step.Anywhere)
    (before : List Event) : Suited before steps := by
  induction steps generalizing before with
  | nil => trivial
  | cons step rest ih =>
    obtain ⟨hstep, hrest⟩ := List.forall_mem_cons.1 h
    exact ⟨hstep before, fun event _ => ih hrest _⟩

theorem Suited.left {steps steps' : List Step} {before : List Event}
    (h : Suited before (steps ++ steps')) : Suited before steps := by
  induction steps generalizing before with
  | nil => trivial
  | cons step rest ih => exact ⟨h.1, fun event htaken => ih (h.2 event htaken)⟩

theorem Suited.right {steps steps' : List Step} {before events : List Event}
    (h : Suited before (steps ++ steps')) (hcut : Cut steps events (.ok ())) :
    Suited (before ++ events) steps' := by
  generalize hok : (Except.ok () : Except CollectionError Unit) = result at hcut
  induction hcut generalizing before with
  | done => simpa using h
  | failed => cases hok
  | passed htaken _ ih =>
    rw [List.append_cons]
    exact ih (h.2 _ htaken) hok

/-! ### Scripts -/

/-- The first failure in what a script lays down is the one that its result reports. -/
theorem Script.Logs.head?_failures {s : Script} {events : List Event}
    {result : Except CollectionError Unit} (h : s.Logs events result)
    (hs : Suited [] (s.bringUp ++ s.build)) (hundo : ∀ step ∈ s.undo, step.Anywhere) :
    (failures events).head? = (errorsOf result).head? := by
  cases h with
  | unmaterialised h =>
    rw [failures, h.failuresAfter_eq hs.left]
  | undone hup hbuild hback =>
    rw [failures, failuresAfter_append, failuresAfter_append, hup.failuresAfter_eq hs.left,
      hbuild.failuresAfter_eq (hs.right hup), hback.failuresAfter_eq (.of_anywhere hundo _),
      ← head?_errorsOf_append]
    rfl

/-- A step that fits anywhere, and whose calls say nothing about checkouts. -/
structure Step.Neutral (step : Step) : Prop where
  anywhere : step.Anywhere
  silent : ∀ event result, step.Taken event result → event.Silent

theorem Cut.silent {steps : List Step} {events : List Event}
    {result : Except CollectionError Unit} (h : Cut steps events result)
    (hsteps : ∀ step ∈ steps, step.Neutral) : ∀ event ∈ events, event.Silent :=
  h.forall_mem fun step hstep => (hsteps step hstep).silent

theorem neutral_isClean : Step.isClean.Neutral where
  anywhere _ := trivial
  silent _ _ h := by cases h <;> exact ⟨rfl, rfl⟩

theorem neutral_buildSteps (site : Site) : ∀ step ∈ buildSteps site, step.Neutral := by
  simp only [buildSteps, List.forall_mem_cons, List.not_mem_nil, false_implies, implies_true,
    and_true]
  refine ⟨⟨fun _ => trivial, ?_⟩, ⟨fun _ => trivial, ?_⟩, ⟨fun _ => trivial, ?_⟩⟩ <;>
    · intro _ _ h
      cases h
      exact ⟨rfl, rfl⟩

theorem neutral_fetching (b : Baseline) : ∀ step ∈ b.fetching, step.Neutral := by
  obtain ⟨_ | remote, reference⟩ := b
  · exact fun _ h => nomatch h
  · refine List.forall_mem_singleton.2 ⟨fun _ => trivial, ?_⟩
    intro _ _ h
    cases h
    exact ⟨rfl, rfl⟩

theorem suited_of_neutral {steps : List Step} (h : ∀ step ∈ steps, step.Neutral)
    (before : List Event) : Suited before steps :=
  .of_anywhere (fun step hstep => (h step hstep).anywhere) before

/-- Behind the call that reports the original revision, and others that say nothing about checkouts,
a checkout may come, and the question whether it switched. -/
theorem suited_checkout {revision original : String} {asked fetched : List Event}
    (hasked : ∀ event ∈ asked, event.Silent) (hfetched : ∀ event ∈ fetched, event.Silent) :
    Suited (asked ++ [.currentRef (.ok original)] ++ fetched)
      (.checkout revision :: .switched revision original :: buildSteps .repository) := by
  refine ⟨trivial, fun event htaken => ⟨⟨?_, ?_⟩, fun _ _ => ?_⟩⟩
  · cases htaken
    refine firstCheckout?_append ?_
    simp only [List.forall_mem_append, List.forall_mem_singleton]
    exact ⟨⟨fun e he => (hasked e he).1, rfl⟩, fun e he => (hfetched e he).1⟩
  · cases htaken
    have hnone : ∀ {events : List Event}, (∀ event ∈ events, event.Silent) →
        events.filterMap Event.reported? = [] :=
      fun h => List.filterMap_eq_nil_iff.2 fun e he => (h e he).2
    simp only [List.filterMap_append, hnone hasked, hnone hfetched]
    rfl
  · exact suited_of_neutral (neutral_buildSteps .repository) _

theorem suited_script {first : List Step} (hfirst : ∀ step ∈ first, step.Neutral)
    (strategy : Strategy) (b : Baseline) (original : String) (place : Path) :
    Suited [] (first ++ (b.script strategy original place).bringUp ++
      (b.script strategy original place).build) := by
  rw [b.script_eq, List.append_assoc]
  refine (suited_of_neutral hfirst []).append fun asked hasked => ?_
  cases strategy with
  | worktree =>
    refine .of_anywhere (fun step hstep => ?_) _
    simp only [Strategy.script, List.mem_append] at hstep
    rcases hstep with (hfetch | hup) | hbuild
    · exact (neutral_fetching b step hfetch).anywhere
    · simp only [List.mem_cons, List.not_mem_nil, or_false] at hup
      rcases hup with rfl | rfl <;> exact fun _ => trivial
    · rcases List.mem_cons.1 hbuild with rfl | hbuild
      · exact fun _ => trivial
      · exact (neutral_buildSteps _ step hbuild).anywhere
  | checkout =>
    have hsilent := hasked.silent hfirst
    simp only [Strategy.script, List.nil_append, List.cons_append, List.append_assoc]
    refine ⟨List.findSome?_eq_none_iff.2 fun e he => (hsilent e he).1, fun event htaken => ?_⟩
    cases htaken
    refine (suited_of_neutral (neutral_fetching b) _).append fun fetched hfetched => ?_
    exact suited_checkout hsilent (hfetched.silent (neutral_fetching b))

theorem anywhere_undo (strategy : Strategy) (b : Baseline) (original : String) (place : Path) :
    ∀ step ∈ (b.script strategy original place).undo, step.Anywhere := by
  rw [b.script_eq]
  cases strategy <;> simp [Strategy.script, Step.Anywhere, Step.Suits]

/-- What a request logs fails first as its result says. -/
theorem head?_failures_of_logs {settings : BaselineSettings} {request : Request}
    {original : String} {place : Path} {calls : List Event} {result : Except CollectionError Unit}
    (h : (request.script settings original place).Logs calls result) :
    (failures calls).head? = (errorsOf result).head? := by
  cases request with
  | pair =>
    have hfirst : ∀ step ∈ Step.isClean :: buildSteps .repository, step.Neutral :=
      List.forall_mem_cons.2 ⟨neutral_isClean, neutral_buildSteps .repository⟩
    exact h.head?_failures (suited_script hfirst _ _ original place)
      (anywhere_undo _ _ original place)
  | one selector =>
    cases selector with
    | workingTree =>
      exact h.head?_failures (suited_of_neutral (neutral_buildSteps .repository) [])
        fun _ hstep => nomatch hstep
    | baseline b =>
      have hsuited := @suited_script [] (fun _ hstep => nomatch hstep) settings.strategy b original
        place
      exact h.head?_failures hsuited (anywhere_undo _ b original place)

variable {σ : Type} (c : Collaborators (StateM σ))

/-- **The first failure is reported, and none is swallowed:** a collection ends with an error
exactly if there is a failure in its log, and then with the error of the first one. -/
theorem perform_error_iff (settings : BaselineSettings) (request : Request) (w : σ) :
    let result := (outcome (request.perform c settings) w).1
    let failed := failures (request.log c settings w)
    ((∃ e, result = .error e) ↔ failed ≠ []) ∧ ∀ e, result = .error e → failed.head? = some e := by
  intro result failed
  obtain ⟨events, hlog, original, place, calls, rfl, hcalls⟩ :=
    playsClosed_perform c settings request w []
  have hresult := (shadows_perform c settings request w []).1
  rw [hresult] at hcalls
  have hhead : failed.head? = (errorsOf (verdict result)).head? := by
    have hlog' : request.log c settings w = calls ++ closing calls := hlog
    rw [← head?_failures_of_logs hcalls]
    simp only [failed, hlog', failures, failuresAfter_append, failuresAfter_closing,
      List.append_nil]
  cases hended : result with
  | ok a =>
    rw [hended] at hhead
    have hnone : failed = [] := List.head?_eq_none_iff.1 hhead
    simp [hnone]
  | error e =>
    rw [hended] at hhead
    have hsome : failed.head? = some e := hhead
    refine ⟨⟨fun _ hnil => ?_, fun _ => ⟨e, rfl⟩⟩, fun e' he' => ?_⟩
    · rw [hnil] at hsome
      cases hsome
    · cases he'
      exact hsome

end AbiGate
