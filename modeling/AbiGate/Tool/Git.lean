/-
# Version control by git

Key definitions: `Git`, `Git.isClean`, `Git.currentRef`, `Git.addWorktree`.
-/
import AbiGate.Tool.Run

namespace AbiGate

/-- A git program and the repository that it is used on. -/
structure Git where
  program : String
  repository : Path
  deriving DecidableEq, Repr

namespace Git

variable {m : Type → Type} [Monad m] (shell : Shell m) (git : Git)

/-- Runs a git command in the repository. -/
def command (arguments : List String) : ExceptT ToolError m String :=
  runTool shell git.program git.repository arguments

/-- Runs a git command for its effect. -/
def act (arguments : List String) : ExceptT ToolError m Unit := do
  discard <| git.command shell arguments

/-- Whether there is no change that is not committed: the status has nothing to list. -/
def isClean : ExceptT ToolError m Bool := do
  return (Text.trimmed (← git.command shell ["status", "--porcelain"])).isEmpty

/-- The branch that the repository is at, or the commit if it is at none. -/
def currentRef : ExceptT ToolError m String := do
  let branch := Text.trimmed (← git.command shell ["branch", "--show-current"])
  if branch.isEmpty then return Text.trimmed (← git.command shell ["rev-parse", "HEAD"])
  return branch

def fetch (remote reference : String) : ExceptT ToolError m Unit :=
  git.act shell ["fetch", remote, reference]

def checkout (reference : String) : ExceptT ToolError m Unit :=
  git.act shell ["checkout", reference]

/-- Brings a revision up in a new working tree that is at no branch. -/
def addWorktree (revision : String) (place : Path) : ExceptT ToolError m Unit :=
  git.act shell ["worktree", "add", "--detach", place.text, revision]

def removeWorktree (place : Path) : ExceptT ToolError m Unit :=
  git.act shell ["worktree", "remove", "--force", place.text]

/-- Brings up all submodules of a working tree, which has none of them when it is new. -/
def updateSubmodules (place : Path) : ExceptT ToolError m Unit := do
  discard <| runTool shell git.program place ["submodule", "update", "--init", "--recursive"]

end Git

end AbiGate
