/-
# A machine with recorded tools

A machine is a file tree and a few programs whose answers are recorded as rules. A rule says what
a command does: it may replace the content of a directory, writes to its outputs, and ends. A
command without a rule does nothing and succeeds. The runs of programs that started are kept.

A check starts in the machine's home. The separate working tree has a name of its own there, by
which it is found from everywhere.

Key definitions: `Rule`, `Machine`, `Machine.shell`, `Machine.surroundings`.
-/
import AbiGate.Tool.Surroundings

namespace AbiGate

/-- What a command does. -/
structure Rule where
  /-- The command line that the rule is for. -/
  command : String
  /-- The number of the run that the rule is for, if it is not for all of them. -/
  nth : Option Nat
  /-- The tree that replaces what a directory holds. -/
  tree : Option String
  run : Run
  deriving DecidableEq, Repr

/-- The run of a program that started. -/
structure ToolCall where
  argv : List String
  directory : Location
  deriving DecidableEq, Repr

/-- A machine with recorded tools. -/
structure Machine where
  disk : FileTree
  /-- The directory that a check starts in. -/
  home : Location
  /-- The separate working tree, as every program names it. -/
  worktree : Path
  /-- Whether a directory for a working tree can be made. -/
  scratchAvailable : Bool
  /-- Whether there is a directory for a working tree. -/
  scratchOpen : Bool := false
  /-- The programs that exist. -/
  programs : List String
  rules : List Rule
  /-- What a rule puts into a directory, by name. -/
  trees : SortedMap String (List (Path × Entry))
  /-- The runs so far, the last one first. -/
  calls : List ToolCall := []
  deriving Repr

namespace Machine

/-- The directory that a path starts in. -/
def startOf (k : Machine) (here : Location) (p : Path) : Location :=
  if p.pieces.head? = some k.worktree.text ∨ p.isAbsolute then [] else here

/-- The location of the directory that a path leads to. -/
def directoryAt (k : Machine) (p : Path) : Except FileFault Location :=
  k.disk.resolveDirectory (k.startOf k.home p) p

/-- The rule for a command that is about to run. Rules are found by the line that the words make
with blanks between them; the runs that count towards the number are those with the same words. -/
def ruleFor? (k : Machine) (argv : List String) : Option Rule :=
  let line := " ".intercalate argv
  let times := k.calls.countP (·.argv = argv) + 1
  k.rules.find? fun r => r.command = line && r.nth.all (· == times)

/-- The path of the directory that a command replaces: the one for a new working tree, or else the
one that it runs in. -/
def targetOf : List String → Path
  | _ :: "worktree" :: "add" :: _ :: place :: _ => ⟨place⟩
  | _ => ⟨"."⟩

/-- The disk after a tree has replaced what a command's directory holds. -/
def replace (k : Machine) (argv : List String) (directory : Location) (tree : String) : FileTree :=
  let target := targetOf argv
  match k.disk.makeWay (k.startOf directory target) target.pieces with
  | .ok (disk, l) => (disk.prune l).writeAll l ((k.trees.get? tree).getD [])
  | .error _ => k.disk

/-- What a command leaves that has no rule. -/
def silentRun : Run := ⟨[], [], .status 0⟩

/-- Runs a program that exists. -/
def react (argv : List String) (directory : Location) (k : Machine) : Run × Machine :=
  let started := { k with calls := { argv, directory } :: k.calls }
  match k.ruleFor? argv with
  | none => (silentRun, started)
  | some rule =>
    match rule.tree with
    | none => (rule.run, started)
    | some tree => (rule.run, { started with disk := k.replace argv directory tree })

/-- Whether a text has a zero character. -/
def hasZero (s : String) : Bool :=
  s.toList.contains '\x00'

/-- Why a program does not start in a directory, if it does not. A name is looked up among the
programs; with a slash in it, it is a path, and no file of the machine is a program. -/
def startFault? (k : Machine) (program : String) (directory : Location) : Option StartFault :=
  if program.toList.contains '/' then
    match k.disk.resolve directory ⟨program⟩ with
    | .ok _ => some .notExecutable
    | .error fault => some (.file fault)
  else if program = "." ∨ program = ".." then some .notExecutable
  else if program.utf8ByteSize > FileTree.maxName then some (.file .nameTooLong)
  else if program = "" ∨ !k.programs.contains program then some (.file .notFound)
  else none

/-- Starts a program, if it and the directory exist. -/
def shell : Shell (StateM Machine) := fun program directory arguments k =>
  if hasZero program || hasZero directory.text || arguments.any hasZero then
    (.error .zeroInArgument, k)
  else
    match k.directoryAt directory with
    | .error fault => (.error (.file fault), k)
    | .ok l =>
      match k.startFault? program l with
      | some fault => (.error fault, k)
      | none =>
        let (run, k) := react (program :: arguments) l k
        (.ok run, k)

/-- Whether a path leads to a file. -/
def isFile (file : Path) : StateM Machine Bool := fun k =>
  (k.disk.isFile (k.startOf k.home file) file, k)

/-- The machine's files. -/
def files : FileAccess (StateM Machine) where
  isDirectory path := fun k => ((k.directoryAt path).isOk, k)
  list directory := fun k => (k.disk.list (k.startOf k.home directory) directory, k)
  read file := fun k => (k.disk.read (k.startOf k.home file) file, k)

/-- Makes the directory for a working tree. -/
def openScratch : StateM Machine (Option Path) := fun k =>
  if k.scratchAvailable then (some k.worktree, { k with scratchOpen := true }) else (none, k)

/-- Removes the directory for a working tree, and the tree in it. -/
def closeScratch : StateM Machine Unit := fun k =>
  ((), { k with scratchOpen := false, disk := k.disk.prune [k.worktree.text] })

/-- The machine as the surroundings of a check. -/
def surroundings : Surroundings (StateM Machine) where
  shell := shell
  isFile := isFile
  files := files
  openScratch := openScratch
  closeScratch := closeScratch

end Machine

end AbiGate
