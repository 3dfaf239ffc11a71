/-
# Compilation by forge

Key definitions: `Forge`, `Forge.inspect`.
-/
import AbiGate.Extraction.Extract
import AbiGate.Text.Line
import AbiGate.Tool.Run

namespace AbiGate

/-- A forge program. -/
structure Forge where
  program : String
  deriving DecidableEq, Repr

namespace Forge

variable {m : Type → Type} [Monad m] (shell : Shell m) (forge : Forge)

/-- Removes what was built below a root. -/
def clean (root : Path) : ExceptT ToolError m Unit := do
  discard <| runTool shell forge.program root ["clean"]

/-- Compiles every contract below a root. -/
def compile (root : Path) : ExceptT ToolError m Unit := do
  discard <| runTool shell forge.program root ["build"]

/-- The lines that list the surface of a contract. -/
def listing (root contract : Path) : ExceptT ToolError m (List String) := do
  return Text.lines (← runTool shell forge.program root ["inspect", contract.text, "abi"])

/-- Inspects the contracts below a root. The reason of a failure is what the tool's error says. -/
def inspect (root : Path) : Inspector m := fun contract => do
  return (← (forge.listing shell root contract).run).mapError ToolError.message

end Forge

end AbiGate
