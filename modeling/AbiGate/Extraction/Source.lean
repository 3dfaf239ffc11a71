/-
# Sources

A walk goes through all that is below the contracts directory, in the order of the tree. Links are
not followed, except that the contracts directory may be one. On its way an extraction opens each
directory, to list it, and each file with the source extension, to read it. What a path names may
be there and yet not be opened: a root says which paths are refused, and why. A directory without a
contracts directory has no sources.

A source is tracked if it declares a version; it is then the contract that its file is named for.

Key definitions: `SourceRoot.sources`, `Source.recognize`.
-/
import AbiGate.Abi.Snapshot
import AbiGate.Abi.Row
import AbiGate.Abi.VersionMarker
import AbiGate.Files.Resolve
import AbiGate.Settings.Basic

namespace AbiGate

/-- A directory that contracts are looked for in. -/
structure SourceRoot where
  tree : FileTree
  /-- Where the way to the directory starts. -/
  location : Location
  way : Path := ⟨"."⟩
  /-- The directory as messages spell it. -/
  path : Path
  /-- Why a directory or file of this path cannot be opened, although it is there. A directory is
  listed in full or not at all. -/
  refusal? : Path → Option FileFault := fun _ => none

/-- What opening a source comes to. -/
inductive Opened where
  | content (octets : Text.Octets)
  /-- A file cannot be read. -/
  | unreadable (fault : FileFault)
  /-- A directory cannot be listed. -/
  | unlistable (fault : FileFault)
  deriving DecidableEq, Repr

/-- What opening a file comes to, by what reading it comes to. -/
def Opened.ofRead : Except FileFault Text.Octets → Opened
  | .ok octets => content octets
  | .error fault => unreadable fault

/-- A file that may declare a contract, or a directory that cannot be listed. -/
structure Source where
  /-- The path in full, as the walk spells it. -/
  path : Path
  opened : Opened
  deriving DecidableEq, Repr

/-- A source that declares a version. -/
structure Tracked where
  /-- The name of the contract: that of the file, without its extension. -/
  name : String
  /-- The path as seen from the root. -/
  path : Path
  version : UInt64
  deriving DecidableEq, Repr

/-- Why a source tree has no snapshot. -/
inductive ExtractionError where
  | unreadable (path : Path) (fault : FileFault)
  | unlistable (path : Path) (fault : FileFault)
  | invalidVersion (e : InvalidVersion)
  | malformedRow (e : MalformedRow)
  /-- The surface of a contract could not be inspected. -/
  | inspection (contract : Path) (reason : String)
  | duplicate (e : DuplicateContract)
  deriving DecidableEq, Repr

/-- What a walk says of a directory that it cannot list. -/
def walkMessage (path : Path) (fault : FileFault) : String :=
  s!"IO error for operation on {path}: {fault.message}"

def ExtractionError.message : ExtractionError → String
  | unreadable path fault => s!"failed to read {path}: {fault.message}"
  | unlistable path fault => s!"failed to walk contracts directory: {walkMessage path fault}"
  | invalidVersion e => e.message
  | malformedRow e => e.message
  | inspection contract reason => s!"ABI inspection of {contract} failed: {reason}"
  | duplicate e => e.message

namespace SourceRoot

/-- The contracts directory as messages spell it. -/
def contractsPath (r : SourceRoot) (s : ExtractionSettings) : Path :=
  r.path.join s.contractsDir

/-- Where the contracts directory is, if there is one. -/
def contractsLocation? (r : SourceRoot) (s : ExtractionSettings) : Option Location :=
  (r.tree.resolveDirectory r.location (r.way.join s.contractsDir)).toOption

/-- What is at a path, unless the path is refused. -/
def offer {α : Type} (r : SourceRoot) (path : Path) (a : α) : Except FileFault α :=
  FileFault.guard (r.refusal? path) a

/-- The source that an entry at some names below the contracts directory is. -/
def sourceOf? (r : SourceRoot) (s : ExtractionSettings) (l : Location) (e : Entry) :
    Option Source :=
  let path := l.foldl Path.child (r.contractsPath s)
  match e with
  | .file octets =>
    if path.extension? = some s.sourceExtension then
      some { path, opened := .ofRead (r.offer path octets) }
    else none
  | .directory => (r.refusal? path).map fun fault => { path, opened := .unlistable fault }
  | .link _ => none

/-- The sources in the order of a walk; a directory that cannot be listed comes before all that is
below it. -/
def sources (r : SourceRoot) (s : ExtractionSettings) : List Source :=
  match r.contractsLocation? s with
  | some directory =>
    (([], .directory) :: r.tree.below directory).filterMap fun e => r.sourceOf? s e.1 e.2
  | none => []

end SourceRoot

/-- The text in a source, or why it has none. -/
def Source.text (source : Source) : Except ExtractionError String :=
  match source.opened with
  | .content octets => (FileTree.textOf octets).mapError (.unreadable source.path)
  | .unreadable fault => .error (.unreadable source.path fault)
  | .unlistable fault => .error (.unlistable source.path fault)

/-- Reads a source and finds out whether it is tracked. -/
def Source.recognize (s : ExtractionSettings) (root : Path) (source : Source) :
    Except ExtractionError (Option Tracked) :=
  match source.text with
  | .error e => .error e
  | .ok text =>
    let path := source.path.relativeTo root
    match VersionMarker.scan path s.marker text with
    | .error e => .error (.invalidVersion e)
    | .ok version => .ok (version.map fun version => { name := path.stem, path, version })

end AbiGate
