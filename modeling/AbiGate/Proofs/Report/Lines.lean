/-
# The lines of a report

A plain report is cut into its lines again. There are four for each violation of a member and two
for each contract that is gone, in the order of the violations, and one more. What the lines of a
violation say is said of the violation alone (`Violation.Told`), and the numbers in the last line
are those of sets: of the contracts with a violation, or of the names that both snapshots have and
of those that only the current one has. The report counts the former by leaving out the names that
repeat the one before, and that is their number because the violations come in order.

Key definitions: `Snapshot.texts`, `Violation.Told`, `Comparison.Lined`.
Key theorems: `mem_texts_compare`, `Text.lines_render`, `Violation.told_block`,
`Comparison.length_violatingContracts`, `lines_report_compare`.
-/
import AbiGate.Command.Check
import AbiGate.Proofs.Comparison.Lists
import AbiGate.Proofs.Report.Wording
import AbiGate.Proofs.Text.Cuts
import Mathlib.Data.Finset.Card
import Mathlib.Data.List.Forall2

namespace AbiGate

/-! ### What a comparison carries -/

/-- The texts of a contract. -/
def Contract.texts (c : Contract) : List String :=
  c.path.text :: c.identifiers.toList.flatMap fun e => e.1 :: e.2.texts

/-- The texts of a snapshot. -/
def Snapshot.texts (s : Snapshot) : List String :=
  s.toList.flatMap fun e => e.1 :: e.2.texts

theorem Contract.mem_texts_of_get? {c : Contract} {key : String} {i : Identifier}
    (held : c.identifiers.get? key = some i) : ∀ t ∈ i.texts, t ∈ c.texts := fun _ ht =>
  List.mem_cons_of_mem _ <| List.mem_flatMap.2
    ⟨(key, i), SortedMap.get?_eq_some_iff.1 held, List.mem_cons_of_mem _ ht⟩

namespace Snapshot

variable {s : Snapshot} {name : String}

theorem mem_texts_of_get? {c : Contract} (is : s.get? name = some c) :
    ∀ t ∈ name :: c.texts, t ∈ s.texts := fun _ ht =>
  List.mem_flatMap.2 ⟨(name, c), SortedMap.get?_eq_some_iff.1 is, ht⟩

theorem path_mem_texts {c : Contract} (is : s.get? name = some c) : c.path.text ∈ s.texts :=
  mem_texts_of_get? is _ (List.mem_cons_of_mem _ List.mem_cons_self)

theorem mem_texts_of_member {c : Contract} {key : String} {i : Identifier}
    (is : s.get? name = some c) (held : c.identifiers.get? key = some i) :
    ∀ t ∈ i.texts, t ∈ s.texts := fun t ht =>
  mem_texts_of_get? is t (List.mem_cons_of_mem _ (Contract.mem_texts_of_get? held t ht))

theorem mem_texts_of_mem_names (h : name ∈ s.names) : name ∈ s.texts := by
  obtain ⟨c, is⟩ := Option.isSome_iff_exists.1 (mem_names.1 h)
  exact mem_texts_of_get? is name List.mem_cons_self

end Snapshot

section

variable {current baseline : Snapshot} {policy : Policy}

/-- What has become of a member is told in its own texts and in those of another that is there. -/
theorem Became.mem_texts {name : String} {now before : Contract} {key : String}
    {old : Identifier} {change : Change} (h : Became now before policy key old change)
    (is : current.get? name = some now) (was : baseline.get? name = some before)
    (held : before.identifiers.get? key = some old) :
    ∀ t ∈ change.texts, t ∈ current.texts ∨ t ∈ baseline.texts := by
  have hold : ∀ t ∈ old.texts, t ∈ current.texts ∨ t ∈ baseline.texts := fun t ht =>
    .inr (Snapshot.mem_texts_of_member was held t ht)
  have hnew : ∀ {key' : String} {new : Identifier}, now.identifiers.get? key' = some new →
      ∀ t ∈ new.texts, t ∈ current.texts ∨ t ∈ baseline.texts := fun holds t ht =>
    .inl (Snapshot.mem_texts_of_member is holds t ht)
  cases h with
  | replaced holds _ => exact List.forall_mem_append.2 ⟨hold, hnew holds⟩
  | succeeded _ next =>
    obtain ⟨key', candidate, -⟩ := next
    exact List.forall_mem_append.2 ⟨hold, hnew candidate.held⟩
  | removed _ _ _ => exact hold

theorem Finding.mem_texts {place : Place} {v : Violation}
    (h : Finding current baseline policy place v) :
    ∀ t ∈ v.texts, t ∈ current.texts ∨ t ∈ baseline.texts := by
  cases h with
  | gone was _ _ =>
    simp only [Violation.texts, Change.texts, List.forall_mem_cons]
    exact ⟨.inr (Snapshot.mem_texts_of_get? was _ List.mem_cons_self),
      .inr (Snapshot.path_mem_texts was), by simp⟩
  | changed was is _ held became =>
    simp only [Violation.texts, List.forall_mem_cons]
    exact ⟨.inl (Snapshot.mem_texts_of_get? is _ List.mem_cons_self),
      .inl (Snapshot.path_mem_texts is), became.mem_texts is was held⟩

/-- **A comparison makes up no text.** -/
theorem mem_texts_compare : ∀ t ∈ (compare current baseline policy).texts,
    t ∈ current.texts ∨ t ∈ baseline.texts := by
  simp only [Comparison.texts, List.forall_mem_append, List.mem_flatMap]
  refine ⟨⟨?_, fun t ht => ?_⟩, fun t ht => ?_⟩
  · rintro t ⟨v, hv, ht⟩
    obtain ⟨place, hfinding⟩ := mem_violations_iff_finding.1 hv
    exact hfinding.mem_texts t ht
  · exact .inl (Snapshot.mem_texts_of_mem_names (Comparison.mem_compared.1 ht).1)
  · exact .inl (Snapshot.mem_texts_of_mem_names (Comparison.mem_added.1 ht).1)

/-- Where a member was found changed, the contract is there and has a version. -/
theorem exists_currentVersion {v : Violation}
    (hv : v ∈ (compare current baseline policy).violations) (h : v.change.old? ≠ none) :
    ∃ now, v.currentVersion = some now := by
  obtain ⟨place, hfinding⟩ := mem_violations_iff_finding.1 hv
  cases hfinding with
  | gone _ _ _ => exact absurd rfl h
  | changed _ _ _ _ _ => exact ⟨_, rfl⟩

end

/-! ### Plain lines -/

namespace Text

/-- A line as it is read on a plain device, without its line feed. -/
def plain (line : StyledLine) : String :=
  String.ofList (line.flatMap (Span.render false))

theorem plain_nil : plain [] = "" := rfl

theorem plain_cons (s : Span) (line : StyledLine) : plain (s :: line) = s.text ++ plain line := by
  simp [plain, String.ofList_append]

theorem lacks_plain {c : Char} {line : StyledLine} (h : line.Lacks c) : Lacks c (plain line) := by
  induction line with
  | nil => exact fun hmem => nomatch hmem
  | cons s line ih =>
    obtain ⟨hs, hline⟩ := List.forall_mem_cons.1 h
    rw [plain_cons]
    exact hs.append (ih hline)

/-- The text ends, and with no control character. -/
def EndsVisibly (s : String) : Prop :=
  s.toList.getLast?.any (' ' ≤ ·) = true

instance (s : String) : Decidable (EndsVisibly s) :=
  inferInstanceAs (Decidable (_ = true))

theorem EndsVisibly.append {tail : String} (h : EndsVisibly tail) (lead : String) :
    EndsVisibly (lead ++ tail) := by
  unfold EndsVisibly at h ⊢
  rw [String.toList_append, List.getLast?_append]
  cases hlast : tail.toList.getLast? with
  | none => simp [hlast] at h
  | some d => simpa [hlast] using h

theorem EndsVisibly.getLast?_ne {s : String} (h : EndsVisibly s) :
    s.toList.getLast? ≠ some '\r' := by
  intro hlast
  rw [EndsVisibly, hlast] at h
  exact absurd h (by decide)

/-- **Plain lines are found again,** if they hold no line feed and end with no carriage return. -/
theorem lines_render {rows : List StyledLine} (h : ∀ line ∈ rows, line.Lacks '\n')
    (hends : ∀ line ∈ rows, EndsVisibly (plain line)) :
    lines (render false rows) = rows.map plain := by
  have hlines : Lines (rows.flatMap (renderLine false)) (rows.map fun l => (plain l).toList) := by
    induction rows with
    | nil => exact .nil
    | cons line rows ih =>
      obtain ⟨hline, hrows⟩ := List.forall_mem_cons.1 h
      obtain ⟨hend, hends⟩ := List.forall_mem_cons.1 hends
      have hfirst : renderLine false line = (plain line).toList ++ ['\n'] := by
        rw [plain, String.toList_ofList]
        rfl
      rw [List.flatMap_cons, hfirst, List.append_assoc]
      exact .feed (lacks_plain hline) hend.getLast?_ne (ih hrows hends)
  unfold lines render
  rw [String.toList_ofList, hlines.cutLines_eq, List.map_map]
  exact List.map_congr_left fun line _ => String.ofList_toList

end Text

/-! ### The lines of a violation -/

namespace Violation

/-- What the lines of a violation say. -/
inductive Told (label : String) (v : Violation) : List String → Prop
  | modified {old new : Identifier} {now : UInt64} (hchange : v.change = .modified old new)
      (hnow : v.currentVersion = some now) :
      Told label v [
        s!"✗ {v.contract} ({v.path}): {old.kind} {old.name} changed without an ABI_VERSION bump",
        s!"    baseline: {old.declaration} [{old.signature}]",
        s!"    current:  {new.declaration} [{new.signature}]",
        s!"    suggestion: bump {v.file}'s public constant ABI_VERSION to {v.suggestedVersion}" ++
          s!" (currently {now})"]
  | removed {old : Identifier} {now : UInt64} (hchange : v.change = .removed old)
      (hnow : v.currentVersion = some now) :
      Told label v [
        s!"✗ {v.contract} ({v.path}): {old.kind} {old.name} removed without an ABI_VERSION bump",
        s!"    baseline: {old.declaration} [{old.signature}]",
        "    current:  (removed)",
        s!"    suggestion: bump {v.file}'s public constant ABI_VERSION to {v.suggestedVersion}" ++
          s!" (currently {now})"]
  | contractRemoved {count : Nat} (hchange : v.change = .contractRemoved count) :
      Told label v [
        s!"✗ {v.contract} ({v.path}): contract with {count} external identifier(s) is missing " ++
          "or no longer declares ABI_VERSION",
        s!"    suggestion: restore {v.file} or its ABI_VERSION declaration " ++
          s!"(baseline {label} has version {v.baselineVersion})"]

theorem plain_headline (v : Violation) (event : StyledLine) :
    Text.plain (v.headline event) = s!"✗ {v.contract} ({v.path}): " ++ Text.plain event := by
  have hmark (s : String) : "✗" ++ (" " ++ s) = "✗ " ++ s := by
    rw [← String.append_assoc]
    rfl
  simp only [headline, Text.plain_cons, String.append_assoc, hmark]
  rfl

theorem plain_event (old : Identifier) (what : String) : Text.plain (event old what) =
    s!"{old.kind} {old.name} {what} without an ABI_VERSION bump" := by
  simp only [event, Text.plain_cons, Text.plain_nil, String.append_assoc, String.append_empty]
  rfl

theorem plain_headline_event (v : Violation) (old : Identifier) {what wording : String}
    (h : " " ++ what ++ " without an ABI_VERSION bump" = wording) :
    Text.plain (v.headline (event old what)) =
      s!"✗ {v.contract} ({v.path}): {old.kind} {old.name}" ++ wording := by
  rw [plain_headline, plain_event, ← h]
  simp only [toString, String.append_assoc]

theorem plain_bumpLine {v : Violation} {now : UInt64} (hnow : v.currentVersion = some now) :
    Text.plain v.bumpLine =
      s!"    suggestion: bump {v.file}'s public constant ABI_VERSION to {v.suggestedVersion}" ++
        s!" (currently {now})" := by
  simp only [bumpLine, hnow, Text.plain_cons, Text.plain_nil, String.append_assoc,
    String.append_empty]
  rfl

theorem plain_display (lead : String) (i : Identifier) :
    Text.plain [s!"{lead}{i.display}"] = s!"{lead}{i.declaration} [{i.signature}]" := by
  simp only [Identifier.display, Text.plain_cons, Text.plain_nil, String.append_empty]
  simp only [toString, String.append_assoc]

/-- A block says of its violation what is to be said. -/
theorem told_block {v : Violation} (label : String)
    (hnow : v.change.old? ≠ none → ∃ now, v.currentVersion = some now) :
    Told label v ((v.block label).map Text.plain) := by
  cases hchange : v.change with
  | modified old new =>
    obtain ⟨now, hcurrent⟩ := hnow (by simp [hchange, Change.old?])
    have hwording : " " ++ "changed" ++ " without an ABI_VERSION bump" =
        " changed without an ABI_VERSION bump" := by decide
    simp only [block, hchange, List.map_cons, List.map_nil, plain_headline_event v old hwording,
      plain_display, plain_bumpLine hcurrent]
    exact .modified hchange hcurrent
  | removed old =>
    obtain ⟨now, hcurrent⟩ := hnow (by simp [hchange, Change.old?])
    have hwording : " " ++ "removed" ++ " without an ABI_VERSION bump" =
        " removed without an ABI_VERSION bump" := by decide
    simp only [block, hchange, List.map_cons, List.map_nil, plain_headline_event v old hwording,
      plain_display, plain_bumpLine hcurrent]
    exact .removed hchange hcurrent
  | contractRemoved count =>
    have hjoin (s : String) : "): " ++ ("contract with " ++ s) = "): contract with " ++ s := by
      rw [← String.append_assoc]
      rfl
    have hhint (first second : String) : Text.plain [first, second] = first ++ second := by
      simp only [Text.plain_cons, Text.plain_nil, String.append_empty]
    simp only [block, hchange, List.map_cons, List.map_nil, plain_headline, hhint]
    have htold : Told label v _ := .contractRemoved hchange
    simp only [toString, String.append_assoc, hjoin] at htold ⊢
    exact htold

theorem Told.endsVisibly {label : String} {v : Violation} {lines : List String}
    (h : Told label v lines) : ∀ line ∈ lines, Text.EndsVisibly line := by
  cases h <;> simp only [List.forall_mem_cons, List.not_mem_nil, false_implies, implies_true,
    and_true]
  case modified =>
    exact ⟨.append (by decide) _, .append (by decide) _, .append (by decide) _,
      .append (.append (by decide) _) _⟩
  case removed =>
    exact ⟨.append (by decide) _, .append (by decide) _, by decide,
      .append (.append (by decide) _) _⟩
  case contractRemoved =>
    exact ⟨.append (by decide) _, .append (.append (by decide) _) _⟩

theorem Told.length_eq {label : String} {v : Violation} {lines : List String}
    (h : Told label v lines) : lines.length = if v.change.old?.isSome then 4 else 2 := by
  cases h <;> simp [*, Change.old?]

theorem Told.length_flatten {label : String} {violations : List Violation}
    {blocks : List (List String)} (h : List.Forall₂ (Told label) violations blocks) :
    blocks.flatten.length = 4 * violations.countP (·.change.old?.isSome) +
      2 * violations.countP (·.change.old?.isNone) := by
  induction h with
  | nil => rfl
  | @cons v lines violations blocks htold _ ih =>
    rw [List.flatten_cons, List.length_append, ih, htold.length_eq, List.countP_cons,
      List.countP_cons]
    cases v.change.old? <;> simp <;> omega

end Violation

/-! ### The last line -/

namespace Comparison

theorem plain_summary_of_eq_nil {d : Comparison} {label : String} (h : d.violations = []) :
    Text.plain (d.summary label) =
      s!"✓ ABI check passed: {d.compared.length} contract(s) compared against {label}, " ++
        s!"{d.added.length} new" := by
  have hclean : d.isClean = true := by rw [isClean, h]; rfl
  have hmark (s : String) : "✓" ++ (" ABI check passed: " ++ s) = "✓ ABI check passed: " ++ s := by
    rw [← String.append_assoc]
    rfl
  rw [summary, if_pos hclean]
  simp [Text.plain_cons, Text.plain_nil, toString, String.append_assoc, hmark]

theorem plain_summary_of_ne_nil {d : Comparison} {label : String} (h : d.violations ≠ []) :
    Text.plain (d.summary label) = s!"✗ {d.size} ABI change(s) without a version bump in " ++
      s!"{d.violatingContracts.length} contract(s)" := by
  have hclean : ¬d.isClean = true := by simpa [isClean] using h
  have hmark (s : String) : "✗" ++ (" " ++ s) = "✗ " ++ s := by
    rw [← String.append_assoc]
    rfl
  rw [summary, if_neg hclean]
  simp [Text.plain_cons, Text.plain_nil, toString, String.append_assoc, hmark]

variable {current baseline : Snapshot} {policy : Policy}

/-- The contracts with a violation are counted as a set. -/
theorem length_violatingContracts : (compare current baseline policy).violatingContracts.length =
    ((compare current baseline policy).violations.map (·.contract)).toFinset.card := by
  -- Leaving out neighbours that repeat leaves no repetition at all, because the list is ordered.
  have hnodup : (compare current baseline policy).violatingContracts.Nodup :=
    pairwise_violatingContracts.imp fun hlt => String.ne_of_lt hlt
  rw [← List.toFinset_card_of_nodup hnodup]
  congr 1
  ext name
  rw [List.mem_toFinset, List.mem_toFinset, mem_violatingContracts, List.mem_map]

theorem length_compared : (compare current baseline policy).compared.length =
    (current.names.toFinset ∩ baseline.names.toFinset).card := by
  have hnodup : (compare current baseline policy).compared.Nodup := baseline.nodup_names.filter _
  rw [← List.toFinset_card_of_nodup hnodup]
  congr 1
  ext name
  rw [List.mem_toFinset, mem_compared, Finset.mem_inter, List.mem_toFinset, List.mem_toFinset]

theorem length_added : (compare current baseline policy).added.length =
    (current.names.toFinset \ baseline.names.toFinset).card := by
  have hnodup : (compare current baseline policy).added.Nodup := current.nodup_names.filter _
  rw [← List.toFinset_card_of_nodup hnodup]
  congr 1
  ext name
  rw [List.mem_toFinset, mem_added, Finset.mem_sdiff, List.mem_toFinset, List.mem_toFinset]

/-- The lines of the plain report on the comparison of two snapshots: a block for each violation,
and the last line. -/
structure Lined (d : Comparison) (label : String) (current baseline : Snapshot)
    (blocks : List (List String)) (last : String) : Prop where
  told : List.Forall₂ (Violation.Told label) d.violations blocks
  /-- Four lines for each violation of a member, two for each contract that is gone, and one. -/
  length_eq : (blocks.flatten ++ [last]).length =
    4 * d.violations.countP (·.change.old?.isSome) +
      2 * d.violations.countP (·.change.old?.isNone) + 1
  last_of_ne_nil : d.violations ≠ [] →
    let violating := (d.violations.map (·.contract)).toFinset.card
    last = s!"✗ {blocks.length} ABI change(s) without a version bump in " ++
      s!"{violating} contract(s)"
  last_of_eq_nil : d.violations = [] →
    let inBoth := (current.names.toFinset ∩ baseline.names.toFinset).card
    let onlyNow := (current.names.toFinset \ baseline.names.toFinset).card
    last = s!"✓ ABI check passed: {inBoth} contract(s) compared against {label}, " ++
      s!"{onlyNow} new"

theorem endsVisibly_summary (d : Comparison) (label : String) :
    Text.EndsVisibly (Text.plain (d.summary label)) := by
  by_cases h : d.violations = []
  · rw [plain_summary_of_eq_nil h]
    exact .append (.append (by decide) _) _
  · rw [plain_summary_of_ne_nil h]
    exact .append (.append (by decide) _) _

end Comparison

/-- **A plain report accounts for every violation,** in order and in lines of its own, if no text
of the snapshots and no label holds a line feed. -/
theorem lines_report_compare {current baseline : Snapshot} {policy : Policy} {label : String}
    (h : ∀ s ∈ label :: (current.texts ++ baseline.texts), Text.Lacks '\n' s) :
    ∃ blocks last,
      Text.lines ((compare current baseline policy).report .text false label) =
        blocks.flatten ++ [last] ∧
      (compare current baseline policy).Lined label current baseline blocks last := by
  let d := compare current baseline policy
  let blocks := d.violations.map fun v => (v.block label).map Text.plain
  have htold : ∀ v ∈ d.violations, Violation.Told label v ((v.block label).map Text.plain) :=
    fun v hv => Violation.told_block label (exists_currentVersion hv)
  have hblocks : List.Forall₂ (Violation.Told label) d.violations blocks :=
    List.forall₂_map_right_iff.2 (List.forall₂_same.2 htold)
  have hlacks : ∀ line ∈ d.textReport label, line.Lacks '\n' := by
    refine Comparison.lacks_textReport (by decide) (List.forall_mem_cons.2 ?_)
    obtain ⟨hlabel, htexts⟩ := List.forall_mem_cons.1 h
    exact ⟨hlabel, fun t ht => htexts t (List.mem_append.2 (mem_texts_compare t ht))⟩
  have hends : ∀ line ∈ d.textReport label, Text.EndsVisibly (Text.plain line) := by
    simp only [Comparison.textReport, List.forall_mem_append, List.mem_flatMap,
      List.forall_mem_singleton]
    refine ⟨?_, d.endsVisibly_summary label⟩
    rintro line ⟨v, hv, hline⟩
    exact (htold v hv).endsVisibly _ (List.mem_map_of_mem hline)
  refine ⟨blocks, Text.plain (d.summary label), ?_, ?_⟩
  · show Text.lines (Text.render false (d.textReport label)) = _
    rw [Text.lines_render hlacks hends, Comparison.textReport, List.map_append,
      List.map_flatMap, List.flatMap_def]
    rfl
  · have hsize : d.size = blocks.length := (List.length_map _).symm
    exact {
      told := hblocks
      length_eq := by rw [List.length_append, Violation.Told.length_flatten hblocks]; rfl
      last_of_ne_nil := fun hne => by
        rw [Comparison.plain_summary_of_ne_nil hne, hsize, Comparison.length_violatingContracts]
      last_of_eq_nil := fun hnil => by
        rw [Comparison.plain_summary_of_eq_nil hnil, Comparison.length_compared,
          Comparison.length_added] }

/-- The market has lost a stand and a function, and an event has changed. -/
theorem lines_report_compare_market :
    let current : Snapshot := ⟨.ofList [
      ("Booth", (standOutline "Booth" []).contract .name),
      ("Kiosk", (standOutline "Kiosk" [(.function, "pay()", "0x1")]).contract .signature),
      ("Till", (standOutline "Till" [(.event, "Paid(uint256)", "0x5")]).contract .name)]⟩
    (∀ s ∈ "main" :: (current.texts ++ marketBaseline.texts), Text.Lacks '\n' s) ∧
    ∃ blocks last,
      Text.lines ((compare current marketBaseline {}).report .text false "main") =
        blocks.flatten ++ [last] ∧
      (compare current marketBaseline {}).Lined "main" current marketBaseline blocks last := by
  intro current
  have h : ∀ s ∈ "main" :: (current.texts ++ marketBaseline.texts), Text.Lacks '\n' s := by
    unfold Text.Lacks
    decide +kernel
  exact ⟨h, lines_report_compare h⟩

end AbiGate
