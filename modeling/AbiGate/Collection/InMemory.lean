/-
# A repository in memory

A collection can be followed on a repository that is kept as a value: a file tree for each
revision, the revision that the repository is at, and what its working tree holds. Every call is
logged. A call can be made to fail, at every time or at one of them; it is logged then, and has no
other effect. Listings are embedded in the sources as comments.

Key definitions: `MemoryRepository`, `MemoryRepository.collaborators`.
-/
import AbiGate.Collection.Collect
import AbiGate.Extraction.Extract

namespace AbiGate

/-- A call that a collection makes. -/
inductive Call where
  | isClean
  | currentRef
  | fetch (remote reference : String)
  | checkout (reference : String)
  | addWorktree (revision : String)
  | removeWorktree
  | updateSubmodules
  | clean (site : Site)
  | compile (site : Site)
  deriving DecidableEq, Repr

/-- The word for a site. -/
def Site.word : Site → String
  | repository => "repo"
  | worktree _ => "worktree"

/-- A call as the log shows it. -/
def Call.line : Call → String
  | isClean => "is_clean"
  | currentRef => "current_ref"
  | fetch remote reference => s!"fetch {remote} {reference}"
  | checkout reference => s!"checkout {reference}"
  | addWorktree revision => s!"worktree add {revision}"
  | removeWorktree => "worktree remove"
  | updateSubmodules => "submodules worktree"
  | clean site => s!"clean {site.word}"
  | compile site => s!"compile {site.word}"

/-- A failure that a call is to have, at every time or at the one with this number. -/
structure InjectedFailure where
  line : String
  nth : Option Nat
  reason : String
  deriving DecidableEq, Repr

/-- A repository in memory. -/
structure MemoryRepository where
  /-- What each revision holds. -/
  trees : SortedMap String FileTree
  /-- The revision that the repository is at. -/
  head : String
  /-- What the repository's working tree holds. -/
  content : FileTree
  /-- Whether the working tree has no change that is not committed. -/
  clean : Bool := true
  /-- Whether checkouts are accepted without effect. -/
  stuck : Bool := false
  failures : List InjectedFailure := []
  /-- Whether a directory for a working tree can be made. -/
  scratchAvailable : Bool := true
  /-- How messages spell the repository's root. -/
  path : Path
  /-- How messages spell the root of a separate working tree. -/
  worktreePath : Path
  /-- Whether there is a directory for a working tree. -/
  scratchOpen : Bool := false
  /-- What the separate working tree holds, if there is one. -/
  worktree : Option FileTree := none
  /-- The calls made so far, the last one first. -/
  log : List Call := []
  deriving Repr

namespace MemoryRepository

/-- The failure that the latest call is to have. -/
def failureOf? (r : MemoryRepository) (call : Call) : Option InjectedFailure :=
  let times := r.log.countP fun c => c.line = call.line
  r.failures.find? fun f => f.line = call.line && f.nth.all (· == times)

/-- An action on the repository. -/
abbrev Action := ExceptT CollectionError (StateM MemoryRepository)

/-- Logs a call, and then acts unless the call is to fail. -/
def calling {α : Type} (call : Call) (act : Action α) : Action α := do
  modify fun r => { r with log := call :: r.log }
  match (← get).failureOf? call with
  | some f => throw (.tool { command := call.line, fault := .refused f.reason })
  | none => act

/-- The tree of a revision that a call needs. -/
def treeOf (call : Call) (revision : String) : Action FileTree := do
  match (← get).trees.get? revision with
  | some tree => return tree
  | none => throw (.tool { command := call.line, fault := .refused "unknown revision" })

/-- Switches the repository to a revision. -/
def switchTo (reference : String) : Action Unit := do
  if (← get).stuck then return
  let tree ← treeOf (.checkout reference) reference
  modify fun r => { r with content := tree, head := reference }

/-- Puts the tree of a revision into the separate working tree. -/
def fillWorktree (revision : String) : Action Unit := do
  let tree ← treeOf (.addWorktree revision) revision
  modify fun r => { r with worktree := some tree }

/-- The directory at a site. -/
def rootOf (r : MemoryRepository) : Site → SourceRoot
  | .repository => { tree := .mounted "tree" r.content, location := ["tree"], path := r.path }
  | .worktree path =>
    { tree := .mounted "tree" (r.worktree.getD .empty), location := ["tree"], path }

/-- The lines behind a mark at their start. -/
def marked (mark : String) (lines : List String) : List String :=
  lines.filterMap fun line =>
    (mark.toList.isPrefixOf? line.toList).map String.ofList

/-- The listing that is embedded in a source. -/
def embeddedListing (source : String) : Except String (List String) :=
  let lines := (Text.lines source).map Text.trimmed
  match marked "// abi-fail: " lines with
  | reason :: _ => .error reason
  | [] => .ok (marked "// abi: " lines)

/-- Inspects a contract by its embedded listing. -/
def inspectEmbedded (root : SourceRoot) : Inspector Id := fun contract =>
  match root.tree.readText root.location contract with
  | .ok source => embeddedListing source
  | .error fault => .error fault.message

/-- The snapshot of the sources at a site. -/
def snapshotAt (s : ExtractionSettings) (r : MemoryRepository) (site : Site) :
    Except ExtractionError Snapshot :=
  (extract s (r.rootOf site) (inspectEmbedded (r.rootOf site))).run

/-- The repository's part in a collection. -/
def collaborators (s : ExtractionSettings) : Collaborators (StateM MemoryRepository) where
  isClean := calling .isClean (return (← get).clean)
  currentRef := calling .currentRef (return (← get).head)
  fetch remote reference := calling (.fetch remote reference) (return ())
  checkout reference := calling (.checkout reference) (switchTo reference)
  openScratch := do
    if !(← get).scratchAvailable then throw .scratch
    modify fun r => { r with scratchOpen := true }
    return (← get).worktreePath
  closeScratch := modify fun r => { r with scratchOpen := false, worktree := none }
  addWorktree revision _ := calling (.addWorktree revision) (fillWorktree revision)
  removeWorktree _ := calling .removeWorktree (modify fun r => { r with worktree := none })
  updateSubmodules _ := calling .updateSubmodules (return ())
  clean site := calling (.clean site) (return ())
  compile site := calling (.compile site) (return ())
  extract site := do
    match snapshotAt s (← get) site with
    | .ok snapshot => return snapshot
    | .error e => throw (.extraction e)

end MemoryRepository

end AbiGate
