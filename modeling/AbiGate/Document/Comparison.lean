/-
# Comparisons in documents

The result of a comparison is an object with the violations, the contracts in both snapshots,
and the new ones. A change names its kind in its first field.

Key definitions: `Comparison.members`, `Violation.toJson`, `Change.toJson`.
-/
import AbiGate.Comparison.Compare
import AbiGate.Document.Snapshot

namespace AbiGate

def Change.toJson : Change → Json
  | .modified old new =>
    .object [("kind", .string "modified"), ("old", old.toJson), ("new", new.toJson)]
  | .removed old => .object [("kind", .string "removed"), ("old", old.toJson)]
  | .contractRemoved identifiers =>
    .object [("kind", .string "contract-removed"), ("identifiers", .integer identifiers)]

def Violation.toJson (v : Violation) : Json :=
  .object [
    ("contract", .string v.contract),
    ("path", .string v.path.text),
    ("current_version", .ofOption .ofUInt64 v.currentVersion),
    ("baseline_version", .ofUInt64 v.baselineVersion),
    ("suggested_version", .ofUInt64 v.suggestedVersion),
    ("change", v.change.toJson)]

/-- The fields of a comparison. -/
def Comparison.members (d : Comparison) : List (String × Json) :=
  [("violations", .array (d.violations.map Violation.toJson)),
    ("compared", .ofStrings d.compared),
    ("added", .ofStrings d.added)]

end AbiGate
