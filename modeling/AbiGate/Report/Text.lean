/-
# Reports to read

A report has a block for each violation, in their order, and a summary at the end. The block of a
member that was changed or removed has four lines: what happened, what was there, what is there
now, and which version to declare. The block of a contract that is gone has two.

Key definitions: `Violation.block`, `Comparison.summary`, `Comparison.textReport`.
-/
import AbiGate.Comparison.Compare
import AbiGate.Text.Styled

namespace AbiGate

/-- The style of what is wrong. -/
def Style.bad : Style := { bold := true, color := some .red }

/-- The style of what is right. -/
def Style.good : Style := { bold := true, color := some .green }

namespace Violation

/-- The file to mend: the last name of the path, or the contract if the path has none. -/
def file (v : Violation) : String :=
  v.path.fileName?.getD v.contract

/-- The line that says what happened. -/
def headline (v : Violation) (event : StyledLine) : StyledLine :=
  ⟨"✗", .bad⟩ :: " " :: ⟨v.contract, { bold := true }⟩ :: s!" ({v.path}): " :: event

/-- What happened to a member. -/
def event (old : Identifier) (what : String) : StyledLine :=
  [s!"{old.kind} ", ⟨old.name, { color := some .yellow }⟩,
    s!" {what} without an ABI_VERSION bump"]

/-- The line that says which version to declare. -/
def bumpLine (v : Violation) : StyledLine :=
  let current := (v.currentVersion.map toString).getD "-"
  [s!"    suggestion: bump {v.file}'s public constant ABI_VERSION to ",
    ⟨toString v.suggestedVersion, .good⟩, s!" (currently {current})"]

/-- The block of a violation. -/
def block (label : String) (v : Violation) : List StyledLine :=
  match v.change with
  | .modified old new =>
    [v.headline (event old "changed"), [s!"    baseline: {old.display}"],
      [s!"    current:  {new.display}"], v.bumpLine]
  | .removed old =>
    [v.headline (event old "removed"), [s!"    baseline: {old.display}"],
      ["    current:  ", ⟨"(removed)", { dimmed := true }⟩], v.bumpLine]
  | .contractRemoved identifiers =>
    [v.headline [s!"contract with {identifiers} external identifier(s) is missing ",
        "or no longer declares ABI_VERSION"],
      [s!"    suggestion: restore {v.file} or its ABI_VERSION declaration ",
        s!"(baseline {label} has version {v.baselineVersion})"]]

end Violation

namespace Comparison

/-- The last line: how much was compared, or how much is wrong. -/
def summary (d : Comparison) (label : String) : StyledLine :=
  if d.isClean then
    [⟨"✓", .good⟩, s!" ABI check passed: {d.compared.length} contract(s) compared against ",
      ⟨label, { color := some .yellow }⟩, s!", {d.added.length} new"]
  else
    [⟨"✗", .bad⟩, s!" {d.size} ABI change(s) without a version bump in ",
      s!"{d.violatingContracts.length} contract(s)"]

/-- The lines of the report on a comparison with a baseline of this label. -/
def textReport (d : Comparison) (label : String) : List StyledLine :=
  d.violations.flatMap (·.block label) ++ [d.summary label]

end Comparison

end AbiGate
