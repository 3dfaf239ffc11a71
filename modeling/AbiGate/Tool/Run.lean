/-
# Runs of a tool

A tool is run with arguments in a directory. It may not start at all; else it writes to its
output and its error output and ends. Unless it ends with status zero, the run failed, and the
error says how it ended and, if it complained, what about.

Key definitions: `Ending`, `Run`, `ToolError`, `Shell`, `runTool`.
-/
import AbiGate.Files.Resolve
import AbiGate.Text.Blank

namespace AbiGate

/-- How a tool ended. -/
inductive Ending where
  | status (code : Nat)
  /-- The tool was ended by a signal, and its memory may have been saved. -/
  | signal (number : Nat) (coreDumped : Bool)
  deriving DecidableEq, Repr

namespace Ending

/-- The names of the signals of Linux, in the order of their numbers, which start at one. -/
def signalNames : List String :=
  ["HUP", "INT", "QUIT", "ILL", "TRAP", "ABRT", "BUS", "FPE", "KILL", "USR1", "SEGV", "USR2",
    "PIPE", "ALRM", "TERM", "STKFLT", "CHLD", "CONT", "STOP", "TSTP", "TTIN", "TTOU", "URG",
    "XCPU", "XFSZ", "VTALRM", "PROF", "WINCH", "IO", "PWR", "SYS"]

/-- The name of a signal in parentheses, behind a blank, if it has one. -/
def signalName : Nat → String
  | 0 => ""
  | number + 1 => (signalNames[number]?.map fun name => s!" (SIG{name})").getD ""

def message : Ending → String
  | status code => s!"exit status: {code}"
  | signal number coreDumped =>
    let ending := if coreDumped then " (core dumped)" else ""
    s!"signal: {number}{signalName number}{ending}"

end Ending

/-- What a tool that started has left. -/
structure Run where
  output : Text.Octets
  errorOutput : Text.Octets
  ending : Ending
  deriving DecidableEq, Repr

/-- Why a tool did not start. -/
inductive StartFault where
  /-- The tool, or the directory that it was to run in, cannot be used. -/
  | file (fault : FileFault)
  /-- What the tool's name leads to is no program. -/
  | notExecutable
  /-- An argument has a zero character. -/
  | zeroInArgument
  deriving DecidableEq, Repr

def StartFault.message : StartFault → String
  | file fault => fault.message
  | notExecutable => "Permission denied (os error 13)"
  | zeroInArgument => "nul byte found in provided data"

/-- Why running a tool failed. -/
inductive ToolFault where
  | notStarted (why : StartFault)
  /-- The tool ended, with this complaint. -/
  | ended (how : Ending) (complaint : String)
  /-- What ran in place of the tool refused, for this reason. -/
  | refused (reason : String)
  deriving DecidableEq, Repr

def ToolFault.message : ToolFault → String
  | notStarted why => why.message
  | ended how complaint => if complaint.isEmpty then how.message else s!"{how.message}: {complaint}"
  | refused reason => reason

/-- A tool that failed, with the command that was run. -/
structure ToolError where
  command : String
  fault : ToolFault
  deriving DecidableEq, Repr

def ToolError.message (e : ToolError) : String :=
  s!"`{e.command}` failed: {e.fault.message}"

/-- Starts a program in a directory with arguments, and waits for its end. -/
abbrev Shell (m : Type → Type) :=
  (program : String) → (directory : Path) → (arguments : List String) → m (Except StartFault Run)

/-- A program and its arguments as messages show them. -/
def commandLine (program : String) (arguments : List String) : String :=
  " ".intercalate (program :: arguments)

/-- What a run has written to its output, if it did not fail. -/
def Run.result (r : Run) : Except ToolFault String :=
  if r.ending = .status 0 then .ok (Text.Utf8.decodeLenient r.output)
  else .error (.ended r.ending (Text.trimmed (Text.Utf8.decodeLenient r.errorOutput)))

/-- Runs a tool for its output. -/
def runTool {m : Type → Type} [Monad m] (shell : Shell m) (program : String) (directory : Path)
    (arguments : List String) : ExceptT ToolError m String := do
  let fail := fun fault => throw { command := commandLine program arguments, fault }
  match ← shell program directory arguments with
  | .error why => fail (.notStarted why)
  | .ok run =>
    match run.result with
    | .ok output => return output
    | .error fault => fail fault

end AbiGate
