/-
# Violations

A violation is a change of a contract's surface that was made without a new version.

Key definitions: `Change`, `Violation`, `Violation.sortKey`.
-/
import AbiGate.Abi.Contract

namespace AbiGate

/-- A change of a surface. -/
inductive Change where
  /-- A member is still there, under another declaration, kind or signature. -/
  | modified (old new : Identifier)
  /-- A member is gone, and nothing has taken its place. -/
  | removed (old : Identifier)
  /-- The contract is gone, with this number of members. -/
  | contractRemoved (identifiers : Nat)
  deriving DecidableEq, Repr

/-- The member that a change is about, as it was. -/
def Change.old? : Change → Option Identifier
  | modified old _ => some old
  | removed old => some old
  | contractRemoved _ => none

/-- A change that needs a new version and has none. -/
structure Violation where
  contract : String
  /-- The path of the contract now, or before if the contract is gone. -/
  path : Path
  /-- The version now; none if the contract is gone. -/
  currentVersion : Option UInt64
  baselineVersion : UInt64
  /-- The least version that would let the change through. -/
  suggestedVersion : UInt64
  change : Change
  deriving DecidableEq, Repr

namespace Violation

/-- The bare name of the member that the violation is about. -/
def identifier? (v : Violation) : Option String :=
  v.change.old?.map (·.name)

/-- Violations are listed by contract, then by member, then by the member's old declaration. -/
def sortKey (v : Violation) : List String :=
  [v.contract, v.identifier?.getD "", (v.change.old?.map (·.declaration)).getD ""]

end Violation

end AbiGate
