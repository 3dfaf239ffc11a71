/-
# The command

The command runs a check with its arguments on a recorded machine, whose document it reads from
standard input. It writes the report to standard output and what went wrong to standard error.

Key definitions: `main`.
-/
import AbiGate.Command.Check
import AbiGate.Document.Machine
import AbiGate.Json.Reader

namespace AbiGate

/-- Runs a check on the machine that standard input describes. -/
def runRecorded (a : Arguments) : IO UInt32 := do
  match Json.read? (← (← IO.getStdin).readToEnd) with
  | none =>
    IO.eprintln "standard input holds no machine"
    return 2
  | some document =>
    let machine := Machine.ofJson "<repository>" "<worktree>" document
    let (result, _) := (check Machine.surroundings false a).run.run machine
    IO.print (standardOutput result)
    if let .error e := result then IO.eprintln e.message
    return UInt32.ofNat (exitStatus result)

end AbiGate

open AbiGate

/-- The command. -/
def main (arguments : List String) : IO UInt32 := do
  match Arguments.read arguments with
  | .ok a => runRecorded a
  | .error e =>
    IO.eprintln e.word
    return UInt32.ofNat e.status
