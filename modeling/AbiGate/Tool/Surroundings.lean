/-
# What a check needs of its surroundings

Key definitions: `Surroundings`, `Surroundings.collaborators`.
-/
import AbiGate.Collection.Collaborators
import AbiGate.Extraction.Live
import AbiGate.Settings.Basic
import AbiGate.Tool.Forge
import AbiGate.Tool.Git

namespace AbiGate

/-- The surroundings of a check: tools to run, files to read, and a place for a working tree. -/
structure Surroundings (m : Type → Type) where
  shell : Shell m
  isFile : (file : Path) → m Bool
  files : FileAccess m
  /-- Makes a directory for a working tree, and says where the tree is to be. -/
  openScratch : m (Option Path)
  /-- Removes that directory. -/
  closeScratch : m Unit

namespace Surroundings

variable {m : Type → Type} [Monad m]

/-- The directory at a site. -/
def siteRoot (repository : Path) : Site → Path
  | .repository => repository
  | .worktree path => path

/-- An action on a tool as part of a collection. -/
def usingTool {α : Type} (act : ExceptT ToolError m α) : ExceptT CollectionError m α :=
  ExceptT.adapt .tool act

/-- The collaborators that work with git and forge on a repository. -/
def collaborators (around : Surroundings m) (settings : Settings) (repository : Path) :
    Collaborators m :=
  let git : Git := ⟨settings.tools.git, repository⟩
  let forge : Forge := ⟨settings.tools.forge⟩
  { isClean := usingTool (git.isClean around.shell)
    currentRef := usingTool (git.currentRef around.shell)
    fetch := fun remote reference => usingTool (git.fetch around.shell remote reference)
    checkout := fun reference => usingTool (git.checkout around.shell reference)
    openScratch := do
      match ← around.openScratch with
      | some place => return place
      | none => throw .scratch
    closeScratch := around.closeScratch
    addWorktree := fun revision place => usingTool (git.addWorktree around.shell revision place)
    removeWorktree := fun place => usingTool (git.removeWorktree around.shell place)
    updateSubmodules := fun place => usingTool (git.updateSubmodules around.shell place)
    clean := fun site => usingTool (forge.clean around.shell (siteRoot repository site))
    compile := fun site => usingTool (forge.compile around.shell (siteRoot repository site))
    extract := fun site => do
      let root := siteRoot repository site
      ExceptT.adapt .extraction <|
        extractLive settings.extraction around.files root (forge.inspect around.shell root) }

end Surroundings

end AbiGate
