/-
# Settings

What a check can be told: where contracts are and how a tracked one is recognised, which
removals count, what to compare with and how to get at it, and which tools to run. Each setting
has a default.

Key definitions: `ExtractionSettings`, `BaselineSettings`, `Baseline`, `ToolSettings`,
`Settings`.
-/
import AbiGate.Abi.Identifier
import AbiGate.Comparison.Policy
import AbiGate.Path

namespace AbiGate

/-- Where the contracts of a source tree are, and which of them are tracked. -/
structure ExtractionSettings where
  /-- The directory of the contracts as seen from the root. -/
  contractsDir : Path := ⟨"contracts"⟩
  /-- The extension of source files, without its dot. -/
  sourceExtension : String := "sol"
  /-- The text that a line with a version starts with. -/
  marker : String := "uint256 public constant ABI_VERSION ="
  keying : Keying := .signature
  deriving DecidableEq, Repr

instance : Inhabited ExtractionSettings := ⟨{}⟩

/-- How the sources of the baseline are brought up. -/
inductive Strategy where
  /-- In a separate working tree; the repository's own one is left alone. -/
  | worktree
  /-- In the repository itself, which is switched back afterwards. -/
  | checkout
  deriving DecidableEq, Repr

namespace Strategy

/-- The word for the strategy. -/
def word : Strategy → String
  | worktree => "worktree"
  | checkout => "checkout"

/-- The strategy that a word names. -/
def ofWord? : String → Option Strategy
  | "worktree" => some worktree
  | "checkout" => some checkout
  | _ => none

theorem ofWord?_eq_some_iff {s : String} {k : Strategy} : ofWord? s = some k ↔ s = k.word := by
  constructor
  · intro h
    unfold ofWord? at h
    split at h <;> cases h <;> rfl
  · rintro rfl
    cases k <;> rfl

end Strategy

/-- A state of the sources to compare with: a branch, tag or commit, on a remote or here. -/
structure Baseline where
  remote : Option String
  reference : String
  deriving DecidableEq, Repr

namespace Baseline

/-- The revision that is brought up. -/
def revision (b : Baseline) : String :=
  match b.remote with
  | some remote => s!"{remote}/{b.reference}"
  | none => b.reference

end Baseline

/-- What to compare with. An empty remote means that nothing is fetched. -/
structure BaselineSettings where
  remote : String := "origin"
  reference : String := "staging"
  strategy : Strategy := .worktree
  deriving DecidableEq, Repr

instance : Inhabited BaselineSettings := ⟨{}⟩

namespace BaselineSettings

/-- The baseline that the settings name. -/
def baseline (s : BaselineSettings) : Baseline where
  remote := if s.remote.isEmpty then none else some s.remote
  reference := s.reference

end BaselineSettings

/-- The tools to run, by name or path. -/
structure ToolSettings where
  git : String := "git"
  forge : String := "forge"
  deriving DecidableEq, Repr

instance : Inhabited ToolSettings := ⟨{}⟩

/-- All that a check can be told. -/
structure Settings where
  extraction : ExtractionSettings := {}
  policy : Policy := {}
  baseline : BaselineSettings := {}
  tools : ToolSettings := {}
  deriving DecidableEq, Repr

instance : Inhabited Settings := ⟨{}⟩

end AbiGate
