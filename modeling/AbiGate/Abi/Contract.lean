/-
# Contracts

What is recorded of a contract: where its source is, the version that the source declares, and
the members of its surface under their keys.

Key definitions: `Contract`, `Contract.insert`, `Contract.insertAll`, `Contract.sameSurface`.
-/
import AbiGate.Abi.Identifier
import AbiGate.Path
import AbiGate.SortedMap

namespace AbiGate

/-- A contract of a source tree. -/
structure Contract where
  /-- The source file as seen from the root of the tree. -/
  path : Path
  /-- The version that the source declares for the surface. -/
  version : UInt64
  /-- The members of the surface under their keys. -/
  identifiers : SortedMap String Identifier
  deriving DecidableEq, Repr

namespace Contract

/-- A contract that shows nothing. -/
def new (path : Path) (version : UInt64) : Contract :=
  ⟨path, version, .empty⟩

/-- The contract with one more member. A member with the same key is replaced. -/
def insert (c : Contract) (keying : Keying) (i : Identifier) : Contract :=
  { c with identifiers := c.identifiers.insert (i.key keying) i }

/-- The contract with more members, put in one after the other. -/
def insertAll (c : Contract) (keying : Keying) (l : List Identifier) : Contract :=
  l.foldl (·.insert keying ·) c

/-- Whether two contracts show exactly the same, whatever their paths and versions. -/
def sameSurface (c d : Contract) : Bool :=
  c.identifiers = d.identifiers

/-- Whether two contracts agree in everything; of the paths only what they name counts. -/
def same (c d : Contract) : Bool :=
  c.path.same d.path && c.version == d.version && c.sameSurface d

end Contract

end AbiGate
