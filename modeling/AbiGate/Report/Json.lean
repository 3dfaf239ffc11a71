/-
# Reports for programs

Key definitions: `Comparison.jsonReport`.
-/
import AbiGate.Document.Comparison
import AbiGate.Json.Printer

namespace AbiGate

/-- The report as one value: the label of the baseline, the verdict, and the whole comparison. -/
def Comparison.reportJson (d : Comparison) (label : String) : Json :=
  .object ([("baseline", .string label), ("clean", .bool d.isClean)] ++ d.members)

/-- The report as an indented document and a line feed. -/
def Comparison.jsonReport (d : Comparison) (label : String) : String :=
  (d.reportJson label).indented ++ "\n"

end AbiGate
