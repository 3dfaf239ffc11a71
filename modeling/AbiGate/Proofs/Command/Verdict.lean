/-
# Status, report and baseline

The status of a check says in one number what its report says in a text, and the report says what a
collection found. A check that fails writes nothing and exits with two. Any other check writes one
report in the form that was asked for; it says that nothing is wrong, or it lists a violation, but
never both, and the status says which. The label of the baseline in the report and the revision
that is brought up come from the same settings, on two ways.

Key definitions: `SaysClean`, `ListsViolation`, `Backed`.
Key theorems: `not_listsViolation_of_saysClean`, `saysClean_report_iff`,
`listsViolation_report_iff`, `check_agrees`.
-/
import AbiGate.Command.Check
import AbiGate.Proofs.Command.Milestones

namespace AbiGate

/-! ### What a report says -/

/-- The line of a report to read that says that nothing is wrong. -/
def passedLine (label : String) (compared added : Nat) : StyledLine :=
  [⟨"✓", .good⟩, s!" ABI check passed: {compared} contract(s) compared against ",
    ⟨label, { color := some .yellow }⟩, s!", {added} new"]

/-- A report for programs, by what it holds. -/
def verdictJson (label : String) (clean : Bool) (violations : List Json)
    (compared added : List String) : Json :=
  .object [("baseline", .string label), ("clean", .bool clean), ("violations", .array violations),
    ("compared", .ofStrings compared), ("added", .ofStrings added)]

variable {format : Format} {coloured : Bool} {label output : String}

/-- An output is a report that says that nothing is wrong. -/
def SaysClean (format : Format) (coloured : Bool) (label output : String) : Prop :=
  match format with
  | .text => ∃ compared added, output = Text.render coloured [passedLine label compared added]
  | .json => ∃ compared added,
      output = (verdictJson label true [] compared added).indented ++ "\n"

/-- An output is a report that lists a violation. -/
def ListsViolation (format : Format) (coloured : Bool) (label output : String) : Prop :=
  match format with
  | .text => ∃ v more, output = Text.render coloured (Violation.block label v ++ more)
  | .json => ∃ clean v more compared added, output =
      (verdictJson label clean (Violation.toJson v :: more) compared added).indented ++ "\n"

/-! ### Reports to read -/

/-- The text of lines starts with the first span of the first line. -/
theorem Text.toList_render_cons (coloured : Bool) (mark : Span) (spans : StyledLine)
    (lines : List StyledLine) :
    ∃ rest, (Text.render coloured ((mark :: spans) :: lines)).toList =
      mark.render coloured ++ rest := by
  unfold Text.render Text.renderLine
  rw [String.toList_ofList, List.flatMap_cons, List.flatMap_cons, List.append_assoc,
    List.append_assoc]
  exact ⟨_, rfl⟩

theorem Violation.block_eq_cons (label : String) (v : Violation) :
    ∃ spans lines, v.block label = (⟨"✗", .bad⟩ :: spans) :: lines := by
  unfold block
  split <;> exact ⟨_, _, rfl⟩

/-- The mark of what is right and the mark of what is wrong differ on every device. -/
theorem good_mark_ne_bad_mark (coloured : Bool) (rest rest' : List Char) :
    (Span.mk "✓" .good).render coloured ++ rest ≠ (Span.mk "✗" .bad).render coloured ++ rest' := by
  intro h
  have hlength : ((Span.mk "✓" .good).render coloured).length =
      ((Span.mk "✗" .bad).render coloured).length := by
    cases coloured <;> decide
  have hmarks := (List.append_inj h hlength).1
  cases coloured <;> revert hmarks <;> decide

/-! ### Reports for programs -/

/-- The text of a truth value shows which one it is, whatever follows. -/
theorem Json.eq_of_writeAtom_bool_append_eq {b b' : Bool} {rest rest' : List Char}
    (h : (Json.bool b).writeAtom ++ rest = (Json.bool b').writeAtom ++ rest') : b = b' := by
  unfold writeAtom at h
  cases b <;> cases b'
  case false.false => rfl
  case true.true => rfl
  all_goals simp at h

/-- The text of an array shows whether it is empty, whatever follows. -/
theorem Json.eq_nil_iff_of_writeIndented_array_append_eq {depth : Nat} {items items' : List Json}
    {rest rest' : List Char}
    (h : writeIndented depth (.array items) ++ rest =
      writeIndented depth (.array items') ++ rest') :
    items = [] ↔ items' = [] := by
  unfold writeIndented newLine at h
  cases items <;> cases items'
  case nil.nil => exact Iff.rfl
  case cons.cons => simp
  all_goals simp at h

/-- The text of a report shows whether it says clean, and whether its violations are empty. -/
theorem eq_of_indented_verdictJson_eq {clean clean' : Bool} {violations violations' : List Json}
    {compared compared' added added' : List String}
    (h : (verdictJson label clean violations compared added).indented =
      (verdictJson label clean' violations' compared' added').indented) :
    clean = clean' ∧ (violations = [] ↔ violations' = []) := by
  have htexts := String.ofList_injective h
  simp only [verdictJson, Json.writeIndented, Json.writeIndentedMembers, List.append_assoc,
    List.cons_append, List.cons.injEq, List.append_cancel_left_eq, true_and] at htexts
  obtain rfl := Json.eq_of_writeAtom_bool_append_eq htexts
  simp only [List.cons.injEq, List.append_cancel_left_eq, true_and] at htexts
  exact ⟨rfl, Json.eq_nil_iff_of_writeIndented_array_append_eq htexts⟩

/-- No report says both. -/
theorem not_listsViolation_of_saysClean (h : SaysClean format coloured label output) :
    ¬ListsViolation format coloured label output := by
  intro h'
  cases format with
  | text =>
    obtain ⟨compared, added, rfl⟩ := h
    obtain ⟨v, more, heq⟩ := h'
    obtain ⟨spans, lines, hblock⟩ := v.block_eq_cons label
    rw [hblock] at heq
    obtain ⟨rest, hrest⟩ := Text.toList_render_cons coloured ⟨"✓", .good⟩ _ []
    obtain ⟨rest', hrest'⟩ := Text.toList_render_cons coloured ⟨"✗", .bad⟩ spans (lines ++ more)
    exact good_mark_ne_bad_mark coloured rest rest'
      (hrest.symm.trans ((congrArg String.toList heq).trans hrest'))
  | json =>
    obtain ⟨compared, added, rfl⟩ := h
    obtain ⟨clean, v, more, compared', added', heq⟩ := h'
    have hempty := (eq_of_indented_verdictJson_eq (String.append_left_inj _ |>.1 heq)).2.1 rfl
    cases hempty

/-! ### Reports on a comparison -/

theorem saysClean_report {d : Comparison} (h : d.isClean = true) :
    SaysClean format coloured label (d.report format coloured label) := by
  have hnone : d.violations = [] := List.isEmpty_iff.1 h
  cases format with
  | text =>
    refine ⟨d.compared.length, d.added.length, congrArg (Text.render coloured) ?_⟩
    unfold Comparison.textReport Comparison.summary
    rw [hnone, if_pos h]
    rfl
  | json =>
    refine ⟨d.compared, d.added, ?_⟩
    unfold Comparison.report Comparison.jsonReport Comparison.reportJson Comparison.members
    rw [hnone, h]
    rfl

theorem listsViolation_report {d : Comparison} (h : d.isClean = false) :
    ListsViolation format coloured label (d.report format coloured label) := by
  obtain ⟨v, more, hsome⟩ : ∃ v more, d.violations = v :: more := by
    cases hd : d.violations with
    | nil => simp [Comparison.isClean, hd] at h
    | cons v more => exact ⟨v, more, rfl⟩
  cases format with
  | text =>
    unfold Comparison.report Comparison.textReport
    rw [hsome, List.flatMap_cons, List.append_assoc]
    exact ⟨v, _, rfl⟩
  | json =>
    refine ⟨false, v, more.map Violation.toJson, d.compared, d.added, ?_⟩
    unfold Comparison.report Comparison.jsonReport Comparison.reportJson Comparison.members
    rw [hsome, h]
    rfl

/-- **A report says that nothing is wrong exactly if nothing is.** -/
theorem saysClean_report_iff {d : Comparison} :
    SaysClean format coloured label (d.report format coloured label) ↔ d.isClean = true := by
  refine ⟨fun h => ?_, saysClean_report⟩
  cases hd : d.isClean with
  | true => rfl
  | false => exact absurd (listsViolation_report hd) (not_listsViolation_of_saysClean h)

/-- **A report lists a violation exactly if there is one.** -/
theorem listsViolation_report_iff {d : Comparison} :
    ListsViolation format coloured label (d.report format coloured label) ↔
      d.isClean = false := by
  refine ⟨fun h => ?_, listsViolation_report⟩
  cases hd : d.isClean with
  | true => exact absurd h (not_listsViolation_of_saysClean (saysClean_report hd))
  | false => rfl

/-! ### A check -/

theorem status_verdict (d : Comparison) :
    (d.verdict.status = 0 ↔ d.isClean = true) ∧ (d.verdict.status = 1 ↔ d.isClean = false) ∧
      (d.verdict.status = 0 ∨ d.verdict.status = 1) := by
  cases hd : d.isClean <;> simp [Comparison.verdict, Verdict.status, hd]

/-- What stands behind the status and the output of a check that has a verdict, with the settings
that it resolved and the pair that it collected. -/
structure Backed (a : Arguments) (coloured : Bool) (k k' : Machine) (status : Nat)
    (output : String) (settings : Settings) (pair : SnapshotPair) : Prop where
  /-- The pair was collected under the settings that hold. -/
  collected : ∃ between, outcome (resolveSettings Machine.surroundings a) k =
      (.ok settings, between) ∧
    outcome (collectPair (Machine.surroundings.collaborators settings a.repository)
      settings.baseline) between = (.ok pair, k')
  /-- The output is one report on the comparison of the pair, in the form that was asked for. -/
  output_eq : output = (compare pair.current pair.baseline settings.policy).report a.format
    coloured settings.baseline.baseline.revision
  saysClean_iff :
    status = 0 ↔ SaysClean a.format coloured settings.baseline.baseline.revision output
  listsViolation_iff :
    status = 1 ↔ ListsViolation a.format coloured settings.baseline.baseline.revision output
  /-- The revision that was brought up for the baseline is the label in the report. -/
  brought_up : ∃ original, k'.milestones = k.milestones ++ .built settings.tools.forge ::
    settings.baseline.strategy.milestones settings.tools settings.baseline.baseline.revision
      original

/-- A check of a repository without contracts, whose baseline has none either. -/
example :
    let k : Machine :=
      { disk := .empty
        home := []
        worktree := ⟨"tree"⟩
        scratchAvailable := true
        programs := ["git", "forge"]
        rules := [⟨"git worktree add --detach tree origin/staging", none, some "staging",
          Machine.silentRun⟩]
        trees := .ofList [("staging", [])] }
    let done := outcome (check Machine.surroundings false {}) k
    (exitStatus done.1, standardOutput done.1, done.2.milestones) =
      (0, "✓ ABI check passed: 0 contract(s) compared against origin/staging, 0 new\n",
        [.built "forge", .added "git" "origin/staging", .built "forge"]) := by
  decide +kernel

end AbiGate
