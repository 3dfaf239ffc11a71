/-
# Settings in documents

Each record of settings has a document form. Reading one gives every absent field its default,
and fails if a field that is there does not have a value of its type. Writing one names every
field.

Key definitions: `ExtractionSettings.ofDocument?`, `Policy.ofDocument?`,
`BaselineSettings.ofDocument?`, `ToolSettings.ofDocument?`, `Settings.ofDocument?`,
`Settings.toJson`.
-/
import AbiGate.Document.Notation
import AbiGate.Settings.Basic

namespace AbiGate

variable {δ : Type}

def ExtractionSettings.ofDocument? (n : Notation δ) (d : δ) : Option ExtractionSettings := do
  match ← n.record? ["contracts_dir", "source_extension", "version_prefix", "keying"] d with
  | [dir, extension, marker, keying] =>
    let default : ExtractionSettings := {}
    return {
      contractsDir := ← Notation.field default.contractsDir (fun d => (n.text? d).map .mk) dir
      sourceExtension := ← Notation.field default.sourceExtension n.text? extension
      marker := ← Notation.field default.marker n.text? marker
      keying := ← Notation.field default.keying (n.choice? Keying.ofWord?) keying }
  | _ => none

def Policy.ofDocument? (n : Notation δ) (d : δ) : Option Policy := do
  match ← n.record? ["removal"] d with
  | [removal] =>
    return { removals := ← Notation.field .requireBump (n.choice? Removals.ofWord?) removal }
  | _ => none

def BaselineSettings.ofDocument? (n : Notation δ) (d : δ) : Option BaselineSettings := do
  match ← n.record? ["remote", "reference", "strategy"] d with
  | [remote, reference, strategy] =>
    let default : BaselineSettings := {}
    return {
      remote := ← Notation.field default.remote n.text? remote
      reference := ← Notation.field default.reference n.text? reference
      strategy := ← Notation.field default.strategy (n.choice? Strategy.ofWord?) strategy }
  | _ => none

def ToolSettings.ofDocument? (n : Notation δ) (d : δ) : Option ToolSettings := do
  match ← n.record? ["git", "forge"] d with
  | [git, forge] =>
    let default : ToolSettings := {}
    return {
      git := ← Notation.field default.git n.text? git
      forge := ← Notation.field default.forge n.text? forge }
  | _ => none

def Settings.ofDocument? (n : Notation δ) (d : δ) : Option Settings := do
  match ← n.record? ["extract", "diff", "baseline", "toolchain"] d with
  | [extraction, policy, baseline, tools] =>
    return {
      extraction := ← Notation.field {} (ExtractionSettings.ofDocument? n) extraction
      policy := ← Notation.field {} (Policy.ofDocument? n) policy
      baseline := ← Notation.field {} (BaselineSettings.ofDocument? n) baseline
      tools := ← Notation.field {} (ToolSettings.ofDocument? n) tools }
  | _ => none

/-! ### Written documents -/

def ExtractionSettings.toJson (s : ExtractionSettings) : Json :=
  .object [
    ("contracts_dir", .string s.contractsDir.text),
    ("source_extension", .string s.sourceExtension),
    ("version_prefix", .string s.marker),
    ("keying", .string s.keying.word)]

def Policy.toJson (p : Policy) : Json :=
  .object [("removal", .string p.removals.word)]

def BaselineSettings.toJson (s : BaselineSettings) : Json :=
  .object [
    ("remote", .string s.remote),
    ("reference", .string s.reference),
    ("strategy", .string s.strategy.word)]

def ToolSettings.toJson (s : ToolSettings) : Json :=
  .object [("git", .string s.git), ("forge", .string s.forge)]

def Settings.toJson (s : Settings) : Json :=
  .object [
    ("extract", s.extraction.toJson),
    ("diff", s.policy.toJson),
    ("baseline", s.baseline.toJson),
    ("toolchain", s.tools.toJson)]

end AbiGate
