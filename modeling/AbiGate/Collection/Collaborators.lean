/-
# Who takes part in a collection

A collection brings sources up with a version control tool, has a compiler build them, and takes
their snapshot. Each of these is asked for through a record of actions in some monad, so that a
collection can be followed on real tools as well as on a repository in memory.

Key definitions: `Site`, `CollectionError`, `Collaborators`.
-/
import AbiGate.Extraction.Source
import AbiGate.Tool.Run

namespace AbiGate

/-- Where sources are looked for: in the repository's own working tree, or in a separate one. -/
inductive Site where
  | repository
  | worktree (path : Path)
  deriving DecidableEq, Repr

/-- Why a collection failed. -/
inductive CollectionError where
  | dirtyWorkingTree
  /-- The repository is still at the state it was at before the checkout. -/
  | checkoutDidNotSwitch (reference current : String)
  | tool (e : ToolError)
  /-- No directory for the separate working tree could be made. -/
  | scratch
  | extraction (e : ExtractionError)
  deriving DecidableEq, Repr

def CollectionError.message : CollectionError → String
  | dirtyWorkingTree => "working tree has uncommitted changes; " ++
      "commit or stash them before running the ABI check"
  | checkoutDidNotSwitch reference current =>
    s!"checkout of {reference} did not switch away from {current}; " ++
      "commit or stash all changes before running the ABI check"
  | tool e => e.message
  | scratch => "failed to create baseline scratch directory"
  | extraction e => e.message

/-- The actions that a collection asks for. -/
structure Collaborators (m : Type → Type) where
  /-- Whether the repository has no change that is not committed. -/
  isClean : ExceptT CollectionError m Bool
  /-- The branch that the repository is at, or the commit if it is at none. -/
  currentRef : ExceptT CollectionError m String
  fetch : (remote reference : String) → ExceptT CollectionError m Unit
  checkout : (reference : String) → ExceptT CollectionError m Unit
  /-- Makes a directory for a working tree, and says where the tree is to be. -/
  openScratch : ExceptT CollectionError m Path
  /-- Removes that directory. -/
  closeScratch : m Unit
  addWorktree : (revision : String) → (place : Path) → ExceptT CollectionError m Unit
  removeWorktree : (place : Path) → ExceptT CollectionError m Unit
  updateSubmodules : (place : Path) → ExceptT CollectionError m Unit
  /-- Removes what a compiler has built. -/
  clean : Site → ExceptT CollectionError m Unit
  compile : Site → ExceptT CollectionError m Unit
  /-- Takes the snapshot of the sources. -/
  extract : Site → ExceptT CollectionError m Snapshot

end AbiGate
