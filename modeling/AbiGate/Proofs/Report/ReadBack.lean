/-
# Reports for programs, read back

A report for programs is a document and a line feed. Any reader of documents finds in it the label,
the verdict and the whole comparison again, whatever the texts in them hold: what has become of a
member is told by the kind that the change names, and no field of the report has the name of
another. So reports that are the same say the same.

Key definitions: `Report`, `Report.ofJson?`, `Comparison.Counted`.
Key theorems: `Comparison.readable_reportJson`, `Report.ofJson?_reportJson`, `jsonReport_readBack`.
-/
import AbiGate.Proofs.Document.Snapshots
import AbiGate.Report.Json

namespace AbiGate

/-! ### Reading -/

/-- What a report for programs says. -/
structure Report where
  label : String
  clean : Bool
  comparison : Comparison
  deriving DecidableEq, Repr

/-- A value, or nothing for null. -/
def Json.asOption? {α : Type} (read : Json → Option α) : Json → Option (Option α)
  | .null => some none
  | j => (read j).map some

/-- The items of an array. -/
def Json.asList? {α : Type} (read : Json → Option α) (j : Json) : Option (List α) :=
  j.asArray?.bind fun items => items.mapM read

def Change.ofJson? (j : Json) : Option Change := do
  match ← (← j.member? "kind").asString? with
  | "modified" =>
    return .modified (← Identifier.ofJson? (← j.member? "old"))
      (← Identifier.ofJson? (← j.member? "new"))
  | "removed" => return .removed (← Identifier.ofJson? (← j.member? "old"))
  | "contract-removed" => return .contractRemoved (← (← j.member? "identifiers").asNat?)
  | _ => none

def Violation.ofJson? (j : Json) : Option Violation := do
  return {
    contract := ← (← j.member? "contract").asString?
    path := ⟨← (← j.member? "path").asString?⟩
    currentVersion := ← (← j.member? "current_version").asOption? Json.asUInt64?
    baselineVersion := ← (← j.member? "baseline_version").asUInt64?
    suggestedVersion := ← (← j.member? "suggested_version").asUInt64?
    change := ← Change.ofJson? (← j.member? "change") }

def Comparison.ofJson? (j : Json) : Option Comparison := do
  return {
    violations := ← (← j.member? "violations").asList? Violation.ofJson?
    compared := ← (← j.member? "compared").asList? Json.asString?
    added := ← (← j.member? "added").asList? Json.asString? }

def Report.ofJson? (j : Json) : Option Report := do
  return {
    label := ← (← j.member? "baseline").asString?
    clean := ← (← j.member? "clean").asBool?
    comparison := ← Comparison.ofJson? j }

/-! ### What is written is read -/

theorem Json.asList?_array_map {α : Type} {write : α → Json} {read : Json → Option α}
    (h : ∀ a, read (write a) = some a) (l : List α) :
    (Json.array (l.map write)).asList? read = some l := by
  show (l.map write).mapM read = some l
  induction l with
  | nil => rfl
  | cons a l ih => simp [h, ih]

theorem Json.asOption?_ofOption (version : Option UInt64) :
    (Json.ofOption Json.ofUInt64 version).asOption? Json.asUInt64? = some version := by
  cases version with
  | none => rfl
  | some v => exact congrArg (Option.map some) (Json.asUInt64?_ofUInt64 v)

theorem Json.asList?_ofStrings (l : List String) :
    (ofStrings l).asList? asString? = some l :=
  have hitem (s : String) : (string s).asString? = some s := rfl
  asList?_array_map hitem l

/-- The kind that a change names stands beside the members, which have kinds of their own. -/
theorem Change.ofJson?_toJson (change : Change) : ofJson? change.toJson = some change := by
  cases change <;> simp [toJson, ofJson?, Json.member?, Json.memberIn?, Json.asString?,
    Json.asNat?, Identifier.ofJson?_toJson]

theorem Violation.ofJson?_toJson (v : Violation) : ofJson? v.toJson = some v := by
  simp [toJson, ofJson?, Json.member?, Json.memberIn?, Json.asString?, Json.asOption?_ofOption,
    Change.ofJson?_toJson]

/-- **A report says again what was written,** each list in its order. -/
theorem Report.ofJson?_reportJson (d : Comparison) (label : String) :
    ofJson? (d.reportJson label) = some { label, clean := d.isClean, comparison := d } := by
  simp [Comparison.reportJson, Comparison.members, ofJson?, Comparison.ofJson?, Json.member?,
    Json.memberIn?, Json.asString?, Json.asBool?, Json.asList?_ofStrings,
    Json.asList?_array_map Violation.ofJson?_toJson]

/-! ### What is written can be read -/

/-- The number of members that a change counts has at most 64 binary digits. -/
def Change.Counted : Change → Prop
  | .contractRemoved identifiers => identifiers < UInt64.size
  | _ => True

/-- What the violations count has at most 64 binary digits, as any count in a machine. -/
def Comparison.Counted (d : Comparison) : Prop :=
  ∀ v ∈ d.violations, v.change.Counted

section

variable {height : Nat}

open Json (Readable)

theorem Json.readable_ofStrings (l : List String) : Readable (height + 1) (.ofStrings l) := by
  refine .array fun item hitem => ?_
  obtain ⟨s, -, rfl⟩ := List.mem_map.1 hitem
  exact .string s

theorem Change.readable_toJson {change : Change} (h : change.Counted) :
    Readable (height + 2) change.toJson := by
  cases change with
  | modified old new =>
    exact .object <| by simp [Readable.string, Identifier.readable_toJson]
  | removed old => exact .object <| by simp [Readable.string, Identifier.readable_toJson]
  | contractRemoved identifiers => exact .object <| by simp [Readable.string, Readable.integer h]

theorem Violation.readable_toJson {v : Violation} (h : v.change.Counted) :
    Readable (height + 3) v.toJson := by
  have hcurrent : Readable (height + 2) (.ofOption .ofUInt64 v.currentVersion) := by
    cases v.currentVersion with
    | none => exact .null
    | some n => exact Json.readable_ofUInt64 n
  exact .object <| by
    simp [Readable.string, Json.readable_ofUInt64, hcurrent, Change.readable_toJson h]

theorem Comparison.readable_reportJson {d : Comparison} (h : d.Counted) (label : String) :
    Readable (height + 5) (d.reportJson label) := by
  have hviolations : Readable (height + 4) (.array (d.violations.map Violation.toJson)) := by
    refine .array fun item hitem => ?_
    obtain ⟨v, hv, rfl⟩ := List.mem_map.1 hitem
    exact Violation.readable_toJson (h v hv)
  exact .object <| by
    simp [members, Readable.string, Readable.bool, hviolations, Json.readable_ofStrings]

end

/-! ### The whole report -/

/-- The text is one document between its braces, and a line feed behind it. No two fields of the
document have the same name, and the report is read from it, line feed or not. -/
def Report.WrittenAs (r : Report) (text : String) : Prop :=
  ∃ document members, text = document ++ "\n" ∧
    (∃ body, document.toList = '\x7b' :: body ++ ['\x7d']) ∧
    Json.read? document = some (.object members) ∧ Json.read? text = some (.object members) ∧
    (members.map (·.1)).Nodup ∧ Report.ofJson? (.object members) = some r

/-- **A report for programs loses nothing.** The label, the verdict and the comparison are read
from it as they were, so no two of them have the same report. -/
theorem jsonReport_readBack {d : Comparison} {label : String} (h : d.Counted) :
    Report.WrittenAs { label, clean := decide (d.violations = []), comparison := d }
      (d.jsonReport label) ∧
    ∀ (d' : Comparison) (label' : String), d'.Counted →
      d'.jsonReport label' = d.jsonReport label → label' = label ∧ d' = d := by
  have hread : ∀ {d : Comparison} {label : String}, d.Counted →
      Json.read? (d.jsonReport label) = some (d.reportJson label) := fun h =>
    Json.read?_indented_append (Comparison.readable_reportJson h _) "\n" (by decide)
  have hclean : d.isClean = decide (d.violations = []) := by
    cases hd : d.violations <;> simp [Comparison.isClean, hd]
  constructor
  · refine ⟨(d.reportJson label).indented, _, rfl, Json.exists_indented_object _, ?_, hread h, ?_,
      hclean ▸ Report.ofJson?_reportJson d label⟩
    · have hdocument := Json.read?_indented_append
        (Comparison.readable_reportJson h label) "" (by decide)
      rwa [String.append_empty] at hdocument
    · simp [Comparison.members]
  · intro d' label' h' heq
    have hjson : d'.reportJson label' = d.reportJson label := by
      simpa [hread h', hread h] using congrArg Json.read? heq
    have hreport := congrArg Report.ofJson? hjson
    rw [Report.ofJson?_reportJson, Report.ofJson?_reportJson] at hreport
    obtain ⟨hlabel, -, hd⟩ := Report.mk.inj (Option.some.inj hreport)
    exact ⟨hlabel, hd⟩

/-- A change of each kind, with texts that have to be escaped. -/
def escapedComparison : Comparison where
  violations := [
    { contract := "Kiosk \"\\\"", path := ⟨"contracts\\Kiosk\t\x01.sol"⟩
      currentVersion := some 18446744073709551615, baselineVersion := 18446744073709551615
      suggestedVersion := 0
      change := .modified (.declared .function "pay(😀)" "") (.declared .event "pay(\n)" "\x7f") },
    { contract := "Till", path := ⟨""⟩, currentVersion := some 0, baselineVersion := 1
      suggestedVersion := 2, change := .removed (.declared .event "\x7b\"kind\": null\x7d" ",") },
    { contract := "Stall", path := ⟨"/"⟩, currentVersion := none, baselineVersion := 1
      suggestedVersion := 2, change := .contractRemoved 18446744073709551615 }]
  compared := ["Kiosk \"\\\"", "Till"]
  added := ["", "\u2028"]

theorem jsonReport_readBack_escaped : escapedComparison.Counted ∧
    Report.WrittenAs
      { label := "\"main\"\r\n", clean := false, comparison := escapedComparison }
      (escapedComparison.jsonReport "\"main\"\r\n") ∧
    ∀ (d' : Comparison) (label' : String), d'.Counted →
      d'.jsonReport label' = escapedComparison.jsonReport "\"main\"\r\n" →
      label' = "\"main\"\r\n" ∧ d' = escapedComparison := by
  have h : escapedComparison.Counted := by
    simp [escapedComparison, Comparison.Counted, Change.Counted, UInt64.size]
  exact ⟨h, jsonReport_readBack h⟩

end AbiGate
