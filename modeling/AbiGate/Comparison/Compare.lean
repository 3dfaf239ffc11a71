/-
# Comparing two snapshots

A contract of the baseline that is still there and has no greater version must show all that it
showed: a member that is not found as it was is a violation. It counts as modified if its key
holds something else now, or else if there is a member of the same kind and name under a key
that the baseline does not have; the first such member is its successor. Otherwise it counts as
removed. A contract that is gone is removed as a whole. Removals count only if the policy says
so. What is new is never a violation.

Key definitions: `Comparison`, `successor?`, `changes`, `violationsOf`, `compare`.
-/
import AbiGate.Abi.Snapshot
import AbiGate.Comparison.Policy
import AbiGate.Comparison.Violation

namespace AbiGate

/-- The result of a comparison. -/
structure Comparison where
  /-- In the order of `Violation.sortKey`. -/
  violations : List Violation
  /-- The contracts that are in both snapshots. -/
  compared : List String
  /-- The contracts that are new. -/
  added : List String
  deriving DecidableEq, Repr

namespace Comparison

/-- Whether nothing is violated. -/
def isClean (d : Comparison) : Bool :=
  d.violations.isEmpty

/-- The number of violations. -/
def size (d : Comparison) : Nat :=
  d.violations.length

/-- A list without the repetitions of an item right behind it. -/
def dropRepeats : List String → List String
  | a :: b :: rest => if a = b then dropRepeats (b :: rest) else a :: dropRepeats (b :: rest)
  | l => l

/-- The contracts with a violation, each once. -/
def violatingContracts (d : Comparison) : List String :=
  dropRepeats (d.violations.map (·.contract))

end Comparison

/-- The member that has taken the place of an old one: the first one of the same kind and name
whose key is new. -/
def successor? (current baseline : Contract) (old : Identifier) : Option Identifier :=
  (current.identifiers.toList.find? fun e =>
    e.2.name = old.name && e.2.kind = old.kind && !baseline.identifiers.contains e.1).map (·.2)

/-- What has become of the member that the baseline has under a key, if it needs a version. -/
def changeOf? (current baseline : Contract) (policy : Policy) (key : String) (old : Identifier) :
    Option Change :=
  match current.identifiers.get? key with
  | some new => if new = old then none else some (.modified old new)
  | none =>
    match successor? current baseline old with
    | some new => some (.modified old new)
    | none =>
      match policy.removals with
      | .requireBump => some (.removed old)
      | .exempt => none

/-- The changes of a contract that need a version, in the order of the baseline's keys. -/
def changes (current baseline : Contract) (policy : Policy) : List Change :=
  baseline.identifiers.toList.filterMap fun e => changeOf? current baseline policy e.1 e.2

/-- The violation of a contract that is gone. -/
def goneViolation (name : String) (baseline : Contract) : Violation where
  contract := name
  path := baseline.path
  currentVersion := none
  baselineVersion := baseline.version
  suggestedVersion := nextVersion baseline.version
  change := .contractRemoved baseline.identifiers.size

/-- The violation of a contract that is there with a change. -/
def changedViolation (name : String) (current baseline : Contract) (change : Change) :
    Violation where
  contract := name
  path := current.path
  currentVersion := some current.version
  baselineVersion := baseline.version
  suggestedVersion := nextVersion baseline.version
  change

/-- The violations of a contract of the baseline. -/
def violationsOf (current : Snapshot) (policy : Policy) (name : String) (baseline : Contract) :
    List Violation :=
  match current.get? name with
  | none =>
    match policy.removals with
    | .requireBump => [goneViolation name baseline]
    | .exempt => []
  | some now =>
    if now.version > baseline.version ∨ now.sameSurface baseline then []
    else (changes now baseline policy).map (changedViolation name now baseline)

/-- Compares a snapshot with a baseline. -/
def compare (current baseline : Snapshot) (policy : Policy) : Comparison where
  violations :=
    (baseline.toList.flatMap fun e => violationsOf current policy e.1 e.2).mergeSort
      fun v w => !decide (w.sortKey < v.sortKey)
  compared := baseline.names.filter current.contains
  added := current.names.filter fun name => !baseline.contains name

end AbiGate
