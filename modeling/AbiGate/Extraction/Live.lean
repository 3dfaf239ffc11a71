/-
# Extraction from files that change

What inspects a contract may change the files that are still to be visited. A walk lists a
directory when it comes to it, and keeps to that list; a source is read when its turn comes. So a
file that was listed and is gone by then cannot be read, and a directory that is new by then is
listed as it is. Each time the way to a file is gone anew, from where the root's path starts.

Key definitions: `FileAccess`, `extractLive`.
-/
import AbiGate.Extraction.Extract

namespace AbiGate

/-- Files as they are at the moment when one asks for them. -/
structure FileAccess (m : Type → Type) where
  isDirectory : (path : Path) → m Bool
  /-- The entries of a directory, by name. -/
  list : (directory : Path) → m (Except FileFault (List (String × Entry)))
  read : (file : Path) → m (Except FileFault Text.Octets)

variable {m : Type → Type} [Monad m]

namespace FileAccess

/-- The text in a file. -/
def readText (files : FileAccess m) (file : Path) : m (Except FileFault String) := do
  return (← files.read file).bind FileTree.textOf

/-- The entries of a directory that a walk comes to. -/
def listDirectory (files : FileAccess m) (directory : Path) :
    ExceptT ExtractionError m (List (String × Entry)) := do
  match ← files.list directory with
  | .ok listed => return listed
  | .error fault => throw (.unlistable directory fault)

/-- A file that a walk comes to, as a source. -/
def readSource (files : FileAccess m) (path : Path) : m Source := do
  return { path, opened := .ofRead (← files.read path) }

end FileAccess

/-- Puts the sources among the entries of a directory, and among all that is below them, into a
snapshot. Entries are taken to be what they were when they were listed. The depth bounds how far
the walk goes down. -/
def addEntries (s : ExtractionSettings) (files : FileAccess m) (root : Path)
    (inspect : Inspector m) : (depth : Nat) → (directory : Path) → List (String × Entry) →
      Snapshot → ExceptT ExtractionError m Snapshot
  | 0, _, _, snapshot => return snapshot
  | depth + 1, directory, listed, snapshot =>
    listed.foldlM (fun snapshot e => do
      let path := directory.child e.1
      match e.2 with
      | .link _ => return snapshot
      | .directory =>
        addEntries s files root inspect depth path (← files.listDirectory path) snapshot
      | .file _ =>
        if path.extension? = some s.sourceExtension then
          addSource s root inspect snapshot (← files.readSource path)
        else return snapshot) snapshot

/-- The snapshot of the sources below a root, each file read at its turn. A path that can be
listed is too short for more directories than the walk goes down. -/
def extractLive (s : ExtractionSettings) (files : FileAccess m) (root : Path)
    (inspect : Inspector m) : ExceptT ExtractionError m Snapshot := do
  let directory := root.join s.contractsDir
  if ← files.isDirectory directory then
    let listed ← files.listDirectory directory
    addEntries s files root inspect FileTree.maxPath directory listed .empty
  else return .empty

end AbiGate
