/-
# Colour is decoration

A coloured report differs from the plain one in its escape sequences alone: without them it is the
plain one (`Text.strip`). They come in pairs. The first of a pair switches a style on, the next
sequence in the text is the reset, and behind the last pair no style is on (`Text.Balanced`). This
holds of any rows of spans whose texts hold no escape character, so it does not matter that a text
may be empty, or may look like the inside of a sequence.

Key definitions: `Text.strip`, `Text.Balanced`.
Key theorems: `Text.strip_render`, `Text.balanced_render`, `strip_report_coloured`.
-/
import AbiGate.Command.Check
import AbiGate.Proofs.Report.Wording

namespace AbiGate

namespace Text

/-- Goes through a text, inside an escape sequence or not, and keeps what stands in none. -/
def stripFrom : (inside : Bool) → List Char → List Char
  | _, [] => []
  | true, c :: rest => stripFrom (c != 'm') rest
  | false, '\x1b' :: '[' :: rest => stripFrom true rest
  | false, c :: rest => c :: stripFrom false rest

/-- The text without its escape sequences, each from an escape character and a bracket to the next
`m`. -/
def strip (cs : List Char) : List Char :=
  stripFrom false cs

/-- Each escape character of the text starts the sequence of a style, or is the next one behind it
and starts the reset; behind the last one no style is on. -/
inductive Balanced : List Char → Prop
  | plain {text : List Char} (h : '\x1b' ∉ text) : Balanced text
  | styled {before text rest : List Char} {s : Style} (hbefore : '\x1b' ∉ before)
      (hs : s ≠ .plain) (htext : '\x1b' ∉ text) (h : Balanced rest) :
      Balanced (before ++ (s.opening ++ (text ++ (Style.reset ++ rest))))

/-! ### Escape sequences -/

theorem strip_append_of_not_mem {text : List Char} (h : '\x1b' ∉ text) (rest : List Char) :
    strip (text ++ rest) = text ++ strip rest := by
  induction text with
  | nil => rfl
  | cons c text ih =>
    obtain ⟨hc, htext⟩ := not_or.1 (List.mem_cons.not.1 h)
    have hstep : strip (c :: (text ++ rest)) = c :: strip (text ++ rest) := by
      unfold strip
      rw [stripFrom.eq_4]
      rintro behind rfl
      exact absurd rfl hc
    rw [List.cons_append, hstep, ih htext, List.cons_append]

theorem stripFrom_true_append {codes : List Char} (h : 'm' ∉ codes) (rest : List Char) :
    stripFrom true (codes ++ 'm' :: rest) = strip rest := by
  induction codes with
  | nil => rfl
  | cons c codes ih =>
    obtain ⟨hc, hcodes⟩ := not_or.1 (List.mem_cons.not.1 h)
    have hinside : (c != 'm') = true := by simpa using Ne.symm hc
    rw [List.cons_append, stripFrom, hinside, ih hcodes]

/-- The sequence of a style has no `m` before its end. -/
theorem exists_opening_eq (s : Style) :
    ∃ codes, s.opening = '\x1b' :: '[' :: (codes ++ ['m']) ∧ 'm' ∉ codes := by
  refine ⟨(";".intercalate s.codes).toList, rfl, ?_⟩
  obtain ⟨bold, dimmed, color⟩ := s
  cases bold <;> cases dimmed <;> rcases color with _ | color <;> try cases color
  all_goals decide

theorem strip_opening_append (s : Style) (rest : List Char) :
    strip (s.opening ++ rest) = strip rest := by
  obtain ⟨codes, hopening, hcodes⟩ := exists_opening_eq s
  rw [hopening, List.cons_append, List.cons_append, List.append_assoc, List.singleton_append]
  exact stripFrom_true_append hcodes rest

theorem strip_reset_append (rest : List Char) : strip (Style.reset ++ rest) = strip rest := rfl

/-- A text without escape characters has no reset behind which a style is to be reopened. -/
theorem reopen_of_not_mem {opening text : List Char} (h : '\x1b' ∉ text) :
    Style.reopen opening text = text := by
  induction text with
  | nil => rfl
  | cons c text ih =>
    obtain ⟨hc, htext⟩ := not_or.1 (List.mem_cons.not.1 h)
    rw [Style.reopen.eq_2, ih htext]
    rintro behind rfl
    exact absurd rfl hc

theorem wrap_of_not_mem {s : Style} {text : List Char} (hs : s ≠ .plain) (h : '\x1b' ∉ text) :
    s.wrap text = s.opening ++ (text ++ Style.reset) := by
  rw [Style.wrap, if_neg hs, reopen_of_not_mem h, List.append_assoc]

/-! ### Stripping -/

theorem strip_span_append {s : Span} (h : Lacks '\x1b' s.text) (rest : List Char) :
    strip (s.render true ++ rest) = s.render false ++ strip rest := by
  rw [Span.render_false]
  unfold Span.render
  rw [if_pos rfl]
  by_cases hs : s.style = .plain
  · rw [Style.wrap, if_pos hs, strip_append_of_not_mem h]
  · rw [wrap_of_not_mem hs h, List.append_assoc, strip_opening_append, List.append_assoc,
      strip_append_of_not_mem h, strip_reset_append]

theorem strip_renderLine_append {line : StyledLine} (h : line.Lacks '\x1b') (rest : List Char) :
    strip (renderLine true line ++ rest) = renderLine false line ++ strip rest := by
  have hspans : ∀ rest, strip (line.flatMap (Span.render true) ++ rest) =
      line.flatMap (Span.render false) ++ strip rest := by
    induction line with
    | nil => exact fun _ => rfl
    | cons s line ih =>
      obtain ⟨hs, hline⟩ := List.forall_mem_cons.1 h
      intro rest
      rw [List.flatMap_cons, List.flatMap_cons, List.append_assoc, strip_span_append hs,
        ih hline, List.append_assoc]
  have hfeed : '\x1b' ∉ ['\n'] := by decide
  unfold renderLine
  rw [List.append_assoc, hspans, List.append_assoc, strip_append_of_not_mem hfeed]

/-- **Without its escape sequences a coloured text is the plain one.** -/
theorem strip_render {lines : List StyledLine} (h : ∀ line ∈ lines, line.Lacks '\x1b') :
    strip (render true lines).toList = (render false lines).toList := by
  unfold render
  rw [String.toList_ofList, String.toList_ofList]
  induction lines with
  | nil => rfl
  | cons line lines ih =>
    obtain ⟨hline, hlines⟩ := List.forall_mem_cons.1 h
    rw [List.flatMap_cons, List.flatMap_cons, strip_renderLine_append hline, ih hlines]

/-! ### Balance -/

theorem Balanced.append {cs cs' : List Char} (h : Balanced cs) (h' : Balanced cs') :
    Balanced (cs ++ cs') := by
  induction h with
  | @plain text htext =>
    cases h' with
    | plain htext' =>
      exact .plain fun hmem => (List.mem_append.1 hmem).elim htext htext'
    | styled hbefore hs hstyled h' =>
      rw [← List.append_assoc]
      exact .styled (fun hmem => (List.mem_append.1 hmem).elim htext hbefore) hs hstyled h'
  | styled hbefore hs htext _ ih =>
    simp only [List.append_assoc]
    exact .styled hbefore hs htext ih

theorem Balanced.flatMap {α : Type} {f : α → List Char} {l : List α}
    (h : ∀ a ∈ l, Balanced (f a)) : Balanced (l.flatMap f) := by
  induction l with
  | nil => exact .plain List.not_mem_nil
  | cons a l ih =>
    obtain ⟨ha, hl⟩ := List.forall_mem_cons.1 h
    exact ha.append (ih hl)

theorem balanced_span {s : Span} (h : Lacks '\x1b' s.text) : Balanced (s.render true) := by
  unfold Span.render
  rw [if_pos rfl]
  by_cases hs : s.style = .plain
  · rw [Style.wrap, if_pos hs]
    exact .plain h
  · rw [wrap_of_not_mem hs h]
    exact @Balanced.styled [] _ [] _ List.not_mem_nil hs h (.plain List.not_mem_nil)

/-- **In a coloured text the sequences come in pairs.** -/
theorem balanced_render {lines : List StyledLine} (h : ∀ line ∈ lines, line.Lacks '\x1b') :
    Balanced (render true lines).toList := by
  unfold render
  rw [String.toList_ofList]
  refine Balanced.flatMap fun line hline => ?_
  exact (Balanced.flatMap fun s hs => balanced_span (h line hline s hs)).append
    (.plain (by decide))

end Text

/-- **Colour is decoration.** If no text of a comparison and its label holds an escape character,
then without its escape sequences the coloured report is the plain one, and in the coloured one each
sequence that switches a style on is followed by the reset as the next sequence. -/
theorem strip_report_coloured {d : Comparison} {label : String}
    (h : ∀ s ∈ label :: d.texts, '\x1b' ∉ s.toList) :
    Text.strip (d.report .text true label).toList = (d.report .text false label).toList ∧
      Text.Balanced (d.report .text true label).toList := by
  have hescape : Text.IsControl '\x1b' := by decide
  have hlines := Comparison.lacks_textReport hescape h
  exact ⟨Text.strip_render hlines, Text.balanced_render hlines⟩

/-- A member without a name whose texts look like the inside of sequences. -/
theorem strip_report_coloured_till :
    let d : Comparison :=
      { violations := [{
          contract := "[31m"
          path := ⟨"contracts/[0m/Till.sol"⟩
          currentVersion := some 1
          baselineVersion := 1
          suggestedVersion := 2
          change := .removed ⟨.function, "", "m(uint256)", ";1m"⟩ }]
        compared := ["[31m"]
        added := [] }
    (∀ s ∈ "main" :: d.texts, '\x1b' ∉ s.toList) ∧
    Text.strip (d.report .text true "main").toList = (d.report .text false "main").toList ∧
      Text.Balanced (d.report .text true "main").toList := by
  intro d
  have h : ∀ s ∈ "main" :: d.texts, '\x1b' ∉ s.toList := by decide
  exact ⟨h, strip_report_coloured h⟩

end AbiGate
