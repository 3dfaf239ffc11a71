/-
# The check

A check resolves its settings, collects the snapshots of the working tree and of the baseline,
compares them, and writes one report. It is clean if nothing is violated. If anything fails
before, there is no report.

Key definitions: `CheckError`, `Verdict`, `Outcome`, `check`, `Outcome.status`.
-/
import AbiGate.Collection.Collect
import AbiGate.Command.Configuration
import AbiGate.Report.Json
import AbiGate.Report.Text

namespace AbiGate

/-- Why a check has no verdict. -/
inductive CheckError where
  | configuration (e : ConfigurationError)
  | collection (e : CollectionError)
  deriving DecidableEq, Repr

namespace CheckError

/-- What the walk and the file system said of what could not be read. -/
def causes : CollectionError → List String
  | .extraction (.unreadable _ fault) => [fault.message]
  | .extraction (.unlistable path fault) => [walkMessage path fault, fault.message]
  | _ => []

/-- The error with its causes, the outermost first. -/
def message : CheckError → String
  | configuration e => e.message
  | collection e => ": ".intercalate <|
    ["failed to collect contract snapshots", e.message] ++ causes e

end CheckError

/-- What a check found. -/
inductive Verdict where
  | clean
  | violations
  deriving DecidableEq, Repr

/-- The status that the command exits with. -/
def Verdict.status : Verdict → Nat
  | clean => 0
  | violations => 1

/-- The verdict on a comparison. -/
def Comparison.verdict (d : Comparison) : Verdict :=
  if d.isClean then .clean else .violations

/-- The text of the report in a form, on a coloured or a plain device. -/
def Comparison.report (d : Comparison) (format : Format) (coloured : Bool) (label : String) :
    String :=
  match format with
  | .text => Text.render coloured (d.textReport label)
  | .json => d.jsonReport label

/-- What a check has written, and its verdict. -/
structure CheckResult where
  report : String
  verdict : Verdict
  deriving DecidableEq, Repr

/-- The result of a check on a pair of snapshots. -/
def judge (s : Settings) (format : Format) (coloured : Bool) (pair : SnapshotPair) :
    CheckResult :=
  let d := compare pair.current pair.baseline s.policy
  { report := d.report format coloured s.baseline.baseline.revision, verdict := d.verdict }

/-- The status that the command exits with; every error is fatal. -/
def exitStatus : Except CheckError CheckResult → Nat
  | .ok result => result.verdict.status
  | .error _ => 2

/-- What the command writes to its output. -/
def standardOutput : Except CheckError CheckResult → String
  | .ok result => result.report
  | .error _ => ""

/-- Runs a check. -/
def check {m : Type → Type} [Monad m] (around : Surroundings m) (coloured : Bool)
    (a : Arguments) : ExceptT CheckError m CheckResult := do
  let settings ← ExceptT.adapt .configuration (resolveSettings around a)
  let pair ← ExceptT.adapt .collection
    (collectPair (around.collaborators settings a.repository) settings.baseline)
  return judge settings a.format coloured pair

end AbiGate
