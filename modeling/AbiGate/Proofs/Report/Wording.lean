/-
# The texts in a report

A report to read is put together from its own wording, from numbers, and from texts that the
comparison carries. Wording and numbers hold no control character. So a control character that
stands in a report stands in a text that was carried into it.

Key definitions: `Text.Lacks`, `Violation.texts`, `Comparison.texts`.
Key theorems: `Path.mem_text_of_mem_fileName?`, `Comparison.lacks_textReport`.
-/
import AbiGate.Proofs.Path
import AbiGate.Report.Text

namespace AbiGate

/-! ### Texts that are carried -/

/-- The texts of a member. -/
def Identifier.texts (i : Identifier) : List String :=
  [i.name, i.declaration, i.signature]

/-- The texts of the members that a change is about. -/
def Change.texts : Change → List String
  | .modified old new => old.texts ++ new.texts
  | .removed old => old.texts
  | .contractRemoved _ => []

/-- The texts of a violation. -/
def Violation.texts (v : Violation) : List String :=
  v.contract :: v.path.text :: v.change.texts

/-- The texts of a comparison. -/
def Comparison.texts (d : Comparison) : List String :=
  d.violations.flatMap Violation.texts ++ d.compared ++ d.added

/-- A character that comes before the space. -/
def Text.IsControl (c : Char) : Prop :=
  c < ' '

instance (c : Char) : Decidable (Text.IsControl c) :=
  inferInstanceAs (Decidable (c < ' '))

/-- The text holds no control character. -/
def Text.Printable (s : String) : Prop :=
  s.toList.all (' ' ≤ ·) = true

instance (s : String) : Decidable (Text.Printable s) :=
  inferInstanceAs (Decidable (_ = true))

/-- The text does not hold the character. -/
def Text.Lacks (c : Char) (s : String) : Prop :=
  c ∉ s.toList

/-! ### Names of files -/

namespace Path

theorem mem_text_of_mem_cutAtSlashes : ∀ {text piece : List Char},
    piece ∈ cutAtSlashes text → ∀ c ∈ piece, c ∈ text
  | [], piece, h, c, hc => by
    obtain rfl := List.mem_singleton.1 h
    exact hc
  | d :: rest, piece, h, c, hc => by
    by_cases hd : d = '/'
    · rw [hd, cutAtSlashes] at h
      rcases List.mem_cons.1 h with rfl | h
      · cases hc
      · exact List.mem_cons_of_mem d (mem_text_of_mem_cutAtSlashes h c hc)
    · obtain ⟨first, more, hrest, hall⟩ := cutAtSlashes_cons hd rest
      rw [hall] at h
      have hin : ∀ piece ∈ first :: more, c ∈ piece → c ∈ d :: rest := fun piece hpiece hmem =>
        List.mem_cons_of_mem d (mem_text_of_mem_cutAtSlashes (hrest ▸ hpiece) c hmem)
      rcases List.mem_cons.1 h with rfl | h
      · rcases List.mem_cons.1 hc with rfl | hc
        · exact List.mem_cons_self
        · exact hin first List.mem_cons_self hc
      · exact hin piece (List.mem_cons_of_mem first h) hc

theorem eq_of_componentOf?_eq_entry {piece name : String}
    (h : componentOf? piece = some (.entry name)) : piece = name := by
  unfold componentOf? at h
  split at h
  · cases h
  split at h
  · cases h
  · exact (Component.entry.inj (Option.some.inj h))

/-- An entry that a path names is a piece of it. -/
theorem mem_pieces_of_entry_mem {p : Path} {name : String} (h : .entry name ∈ p.components) :
    name ∈ p.pieces := by
  have hinner : ∀ {pieces : List String}, .entry name ∈ innerComponents pieces → name ∈ pieces := by
    intro pieces hmem
    obtain ⟨piece, hpiece, hcomponent⟩ := List.mem_filterMap.1 hmem
    exact eq_of_componentOf?_eq_entry hcomponent ▸ hpiece
  unfold components at h
  split at h
  · cases h
  · next hpieces =>
    rw [hpieces]
    exact List.mem_cons_of_mem _ (hinner (by simpa using h))
  · next hpieces =>
    rw [hpieces]
    exact List.mem_cons_of_mem _ (hinner (by simpa using h))
  · exact hinner h

/-- The name of a file is spelled in its path. -/
theorem mem_text_of_mem_fileName? {p : Path} {name : String} (h : p.fileName? = some name) :
    ∀ c ∈ name.toList, c ∈ p.text.toList := by
  have hentry : .entry name ∈ p.components := by
    unfold fileName? at h
    split at h
    · next last hlast =>
      cases h
      exact List.mem_of_getLast? hlast
    · cases h
  obtain ⟨letters, hletters, hname⟩ := List.mem_map.1 (mem_pieces_of_entry_mem hentry)
  rw [← hname, String.toList_ofList]
  exact mem_text_of_mem_cutAtSlashes hletters

end Path

/-! ### Wording and numbers -/

namespace Text

theorem Lacks.append {c : Char} {s t : String} (hs : Lacks c s) (ht : Lacks c t) :
    Lacks c (s ++ t) := by
  rw [Lacks, String.toList_append, List.mem_append]
  exact not_or.2 ⟨hs, ht⟩

variable {c : Char} (hc : IsControl c)

include hc

theorem lacks_of_printable {s : String} (h : Printable s) : Lacks c s := fun hmem =>
  absurd hc (Char.not_lt.2 (of_decide_eq_true (List.all_eq_true.1 h c hmem)))

/-- A text between two words of the report. -/
theorem Lacks.between {lead s tail : String} (hs : Lacks c s) (hlead : Printable lead)
    (htail : Printable tail) : Lacks c (lead ++ s ++ tail) :=
  ((lacks_of_printable hc hlead).append hs).append (lacks_of_printable hc htail)

theorem lacks_toString_nat (n : Nat) : Lacks c (toString n) := by
  refine lacks_of_printable hc (List.all_eq_true.2 fun d hd => decide_eq_true ?_)
  have hdigit : d.isDigit = true := by
    refine Nat.isDigit_of_mem_toDigits (by decide) (Nat.le_refl 10) (n := n) ?_
    rwa [← Nat.toList_repr]
  rw [Char.isDigit, Bool.and_eq_true, decide_eq_true_eq] at hdigit
  exact Char.le_trans (by decide) hdigit.1

theorem lacks_toString_uint64 (n : UInt64) : Lacks c (toString n) :=
  lacks_toString_nat hc n.toNat

theorem lacks_toString_kind (kind : EntryKind) : Lacks c (toString kind) := by
  cases kind <;> exact lacks_of_printable hc (by decide)

end Text

/-! ### Lines -/

/-- No span of the line holds the character. -/
def StyledLine.Lacks (c : Char) (line : StyledLine) : Prop :=
  ∀ s ∈ line, Text.Lacks c s.text

theorem StyledLine.lacks_nil (c : Char) : StyledLine.Lacks c [] :=
  fun _ h => nomatch h

theorem StyledLine.Lacks.cons {c : Char} {s : Span} {line : StyledLine} (hs : Text.Lacks c s.text)
    (hline : StyledLine.Lacks c line) : StyledLine.Lacks c (s :: line) :=
  List.forall_mem_cons.2 ⟨hs, hline⟩

section

variable {c : Char} {v : Violation} {old : Identifier}

theorem Violation.lacks_file (h : ∀ s ∈ v.texts, Text.Lacks c s) : Text.Lacks c v.file := by
  unfold file
  cases hname : v.path.fileName? with
  | none => exact h v.contract (by simp [texts])
  | some name =>
    have hpath : Text.Lacks c v.path.text := h v.path.text (by simp [texts])
    exact fun hmem => hpath (Path.mem_text_of_mem_fileName? hname c hmem)

variable (hc : Text.IsControl c)

include hc

theorem Identifier.lacks_display (h : ∀ s ∈ old.texts, Text.Lacks c s) :
    Text.Lacks c old.display := by
  have hdeclaration := h old.declaration (by simp [texts])
  have hsignature := h old.signature (by simp [texts])
  exact ((hdeclaration.append (Text.lacks_of_printable hc (by decide))).append hsignature).append
    (Text.lacks_of_printable hc (by decide))

namespace Violation

theorem lacks_event (h : ∀ s ∈ old.texts, Text.Lacks c s) {what : String}
    (hwhat : Text.Printable what) : StyledLine.Lacks c (event old what) := by
  have hname := h old.name (by simp [Identifier.texts])
  have hkind := Text.lacks_toString_kind hc old.kind
  exact .cons (hkind.append (Text.lacks_of_printable hc (by decide))) <| .cons hname <|
    .cons ((Text.lacks_of_printable hc hwhat).between hc (by decide) (by decide)) <|
    StyledLine.lacks_nil c

variable (h : ∀ s ∈ v.texts, Text.Lacks c s)

include h

theorem lacks_headline {event : StyledLine} (hevent : event.Lacks c) :
    StyledLine.Lacks c (v.headline event) := by
  have hcontract := h v.contract (by simp [texts])
  have hpath := h v.path.text (by simp [texts])
  exact .cons (Text.lacks_of_printable hc (by decide)) <|
    .cons (Text.lacks_of_printable hc (by decide)) <| .cons hcontract <|
    .cons (hpath.between hc (by decide) (by decide)) hevent

theorem lacks_bumpLine : StyledLine.Lacks c v.bumpLine := by
  have hcurrent : Text.Lacks c ((v.currentVersion.map toString).getD "-") := by
    cases v.currentVersion with
    | none => exact Text.lacks_of_printable hc (by decide)
    | some version => exact Text.lacks_toString_uint64 hc version
  exact .cons ((lacks_file h).between hc (by decide) (by decide)) <|
    .cons (Text.lacks_toString_uint64 hc v.suggestedVersion) <|
    .cons (hcurrent.between hc (by decide) (by decide)) <| StyledLine.lacks_nil c

/-- The lines of a block hold no control character that its violation does not carry. -/
theorem lacks_block {label : String} (hlabel : Text.Lacks c label) :
    ∀ line ∈ v.block label, StyledLine.Lacks c line := by
  have hbump := lacks_bumpLine hc h
  cases hchange : v.change with
  | modified old new =>
    have hold : ∀ s ∈ old.texts, Text.Lacks c s := fun s hs =>
      h s (by simp [texts, hchange, Change.texts, hs])
    have hnew : ∀ s ∈ new.texts, Text.Lacks c s := fun s hs =>
      h s (by simp [texts, hchange, Change.texts, hs])
    simp only [block, hchange, List.forall_mem_cons]
    refine ⟨lacks_headline hc h (lacks_event hc hold (by decide)), ?_, ?_, hbump, by simp⟩
    · exact .cons ((Text.lacks_of_printable hc (by decide)).append
        (Identifier.lacks_display hc hold)) (StyledLine.lacks_nil c)
    · exact .cons ((Text.lacks_of_printable hc (by decide)).append
        (Identifier.lacks_display hc hnew)) (StyledLine.lacks_nil c)
  | removed old =>
    have hold : ∀ s ∈ old.texts, Text.Lacks c s := fun s hs =>
      h s (by simp [texts, hchange, Change.texts, hs])
    simp only [block, hchange, List.forall_mem_cons]
    refine ⟨lacks_headline hc h (lacks_event hc hold (by decide)), ?_, ?_, hbump, by simp⟩
    · exact .cons ((Text.lacks_of_printable hc (by decide)).append
        (Identifier.lacks_display hc hold)) (StyledLine.lacks_nil c)
    · exact .cons (Text.lacks_of_printable hc (by decide)) <|
        .cons (Text.lacks_of_printable hc (by decide)) <| StyledLine.lacks_nil c
  | contractRemoved identifiers =>
    have hcount := Text.lacks_toString_nat hc identifiers
    have hversion := Text.lacks_toString_uint64 hc v.baselineVersion
    simp only [block, hchange, List.forall_mem_cons]
    refine ⟨lacks_headline hc h ?_, ?_, by simp⟩
    · exact .cons (hcount.between hc (by decide) (by decide)) <|
        .cons (Text.lacks_of_printable hc (by decide)) <| StyledLine.lacks_nil c
    · exact .cons ((lacks_file h).between hc (by decide) (by decide)) <|
        .cons (((hlabel.between hc (by decide) (by decide)).append hversion).append
          (Text.lacks_of_printable hc (by decide))) <| StyledLine.lacks_nil c

end Violation

/-- **A report holds no control character that its texts do not hold.** -/
theorem Comparison.lacks_textReport {d : Comparison} {label : String}
    (h : ∀ s ∈ label :: d.texts, Text.Lacks c s) :
    ∀ line ∈ d.textReport label, StyledLine.Lacks c line := by
  obtain ⟨hlabel, htexts⟩ := List.forall_mem_cons.1 h
  unfold textReport
  simp only [List.forall_mem_append, List.forall_mem_singleton, List.mem_flatMap]
  constructor
  · rintro line ⟨v, hv, hline⟩
    refine Violation.lacks_block hc (fun s hs => htexts s ?_) hlabel line hline
    simp only [texts, List.mem_append, List.mem_flatMap]
    exact .inl (.inl ⟨v, hv, hs⟩)
  · have hcount := Text.lacks_toString_nat hc
    unfold summary
    split
    · exact .cons (Text.lacks_of_printable hc (by decide)) <|
        .cons ((hcount d.compared.length).between hc (by decide) (by decide)) <|
        .cons hlabel <| .cons ((hcount d.added.length).between hc (by decide) (by decide)) <|
        StyledLine.lacks_nil c
    · exact .cons (Text.lacks_of_printable hc (by decide)) <|
        .cons ((hcount d.size).between hc (by decide) (by decide)) <|
        .cons ((hcount d.violatingContracts.length).append
          (Text.lacks_of_printable hc (by decide))) <| StyledLine.lacks_nil c

end

end AbiGate
