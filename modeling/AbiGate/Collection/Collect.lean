/-
# Collection

A collection takes the snapshot of a state of the sources. The working tree is compiled and
extracted as it is. A baseline is brought up first, in a separate working tree or by a checkout,
and what was done to bring it up is undone afterwards, whatever came of it. If more than one step
fails, the first one is reported.

Key definitions: `thenUndo`, `compileAndExtract`, `collect`, `collectPair`.
-/
import AbiGate.Collection.Collaborators

namespace AbiGate

/-- A state of the sources. -/
inductive Selector where
  | workingTree
  | baseline (b : Baseline)
  deriving DecidableEq, Repr

/-- How a state is named to a reader. -/
def Selector.display : Selector → String
  | workingTree => "working tree"
  | baseline b => s!"baseline {b.revision}"

variable {m : Type → Type} [Monad m]

/-- The result of an action, unless the action or what undoes it failed. -/
def resultOf {ε α : Type} : Except ε α → Except ε Unit → Except ε α
  | .error e, _ => .error e
  | .ok _, .error e => .error e
  | .ok a, .ok () => .ok a

/-- Acts, and then undoes it whatever came of the action. -/
def thenUndo {ε α : Type} (act : ExceptT ε m α) (undo : ExceptT ε m Unit) : ExceptT ε m α :=
  ExceptT.mk do
    let result ← act.run
    let undone ← undo.run
    return resultOf result undone

variable (c : Collaborators m)

/-- Compiles the sources at a site from scratch and takes their snapshot. -/
def compileAndExtract (site : Site) : ExceptT CollectionError m Snapshot := do
  c.clean site
  c.compile site
  c.extract site

/-- Fetches a baseline that is on a remote. -/
def fetchBaseline (b : Baseline) : ExceptT CollectionError m Unit :=
  match b.remote with
  | some remote => c.fetch remote b.reference
  | none => return ()

/-- Takes the snapshot of a baseline in a separate working tree. -/
def collectInWorktree (b : Baseline) : ExceptT CollectionError m Snapshot := do
  fetchBaseline c b
  let place ← c.openScratch
  thenUndo
    (do
      c.addWorktree b.revision place
      thenUndo
        (do
          c.updateSubmodules place
          compileAndExtract c (.worktree place))
        (c.removeWorktree place))
    (ExceptT.lift c.closeScratch)

/-- Takes the snapshot of a baseline in the repository itself, switched to it. -/
def collectByCheckout (b : Baseline) : ExceptT CollectionError m Snapshot := do
  let before ← c.currentRef
  fetchBaseline c b
  c.checkout b.revision
  thenUndo
    (do
      let now ← c.currentRef
      if now = before then throw (.checkoutDidNotSwitch b.revision now)
      compileAndExtract c .repository)
    (do
      c.checkout before
      c.clean .repository)

/-- Takes the snapshot of a state of the sources. -/
def collect (strategy : Strategy) : Selector → ExceptT CollectionError m Snapshot
  | .workingTree => compileAndExtract c .repository
  | .baseline b =>
    match strategy with
    | .worktree => collectInWorktree c b
    | .checkout => collectByCheckout c b

/-- Takes the snapshots of the working tree and of the baseline. A repository with changes that are
not committed is refused before anything is built. -/
def collectPair (s : BaselineSettings) : ExceptT CollectionError m SnapshotPair := do
  if !(← c.isClean) then throw .dirtyWorkingTree
  let current ← collect c s.strategy .workingTree
  let baseline ← collect c s.strategy (.baseline s.baseline)
  return { current, baseline }

end AbiGate
