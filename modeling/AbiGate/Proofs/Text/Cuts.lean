/-
# Cuts of a text

A text is trimmed, cut into lines, and asked for its first word. Here each cut is said by what the
text is made of, and not by how one goes through it: a text is trimmed if blanks around another
text change nothing, its first word stands between blanks, and its lines are told by the line
feeds between them (`Lines`).

Key definitions: `Text.Blank`, `Text.FirstWord`, `Text.Lines`.
Key theorems: `Text.trim_padded`, `Text.trimStart_eq_cons_iff`, `Text.firstWord?_eq_some_iff`,
`Text.cutLines_eq_iff`.
-/
import AbiGate.Text.Blank
import AbiGate.Text.Line
import Mathlib.Data.List.TakeWhile

namespace AbiGate.Text

/-! ### Blanks at the ends -/

/-- The text holds nothing but blanks. -/
def Blank (cs : List Char) : Prop :=
  ∀ c ∈ cs, isBlank c = true

instance (cs : List Char) : Decidable (Blank cs) :=
  inferInstanceAs (Decidable (∀ c ∈ cs, isBlank c = true))

theorem Blank.reverse {cs : List Char} (h : Blank cs) : Blank cs.reverse :=
  fun c hc => h c (List.mem_reverse.1 hc)

theorem trimStart_blank_append {before : List Char} (h : Blank before) (rest : List Char) :
    trimStart (before ++ rest) = trimStart rest := by
  unfold trimStart
  exact List.dropWhile_append_of_pos h

theorem trimStart_eq_nil_iff {cs : List Char} : trimStart cs = [] ↔ Blank cs :=
  List.dropWhile_eq_nil_iff

/-- A text is trimmed down to a character exactly if it has only blanks before it. -/
theorem trimStart_eq_cons_iff {cs rest : List Char} {c : Char} :
    trimStart cs = c :: rest ↔
      isBlank c = false ∧ ∃ before, Blank before ∧ cs = before ++ c :: rest := by
  constructor
  · intro h
    have hhead := List.head?_dropWhile_not isBlank cs
    rw [show cs.dropWhile isBlank = c :: rest from h] at hhead
    refine ⟨by simpa using hhead, cs.takeWhile isBlank, fun d hd => ?_, ?_⟩
    · exact List.mem_takeWhile_imp hd
    · rw [← h, trimStart, List.takeWhile_append_dropWhile]
  · rintro ⟨hc, before, hbefore, rfl⟩
    rw [trimStart_blank_append hbefore, trimStart, List.dropWhile_cons_of_neg (by simp [hc])]

theorem trimEnd_append_blank (cs : List Char) {behind : List Char} (h : Blank behind) :
    trimEnd (cs ++ behind) = trimEnd cs := by
  unfold trimEnd
  rw [List.reverse_append, List.dropWhile_append_of_pos h.reverse]

theorem trimStart_append (cs behind : List Char) :
    trimStart (cs ++ behind) =
      if Blank cs then trimStart behind else trimStart cs ++ behind := by
  split
  · next h => exact trimStart_blank_append h behind
  · next h =>
    unfold trimStart
    rw [List.dropWhile_append, if_neg]
    rw [List.isEmpty_iff]
    exact fun hnil => h (trimStart_eq_nil_iff.1 hnil)

/-- **Blanks around a text are taken off.** -/
theorem trim_padded {before behind : List Char} (hbefore : Blank before) (hbehind : Blank behind)
    (cs : List Char) : trim (before ++ cs ++ behind) = trim cs := by
  unfold trim
  rw [List.append_assoc, trimStart_blank_append hbefore, trimStart_append]
  split
  · next h =>
    rw [trimStart_eq_nil_iff.2 h, trimStart_eq_nil_iff.2 hbehind]
  · exact trimEnd_append_blank _ hbehind

theorem trim_eq_nil_iff {cs : List Char} : trim cs = [] ↔ Blank cs := by
  unfold trim trimEnd
  rw [List.reverse_eq_nil_iff, List.dropWhile_eq_nil_iff]
  constructor
  · intro h
    rw [← trimStart_eq_nil_iff]
    -- What is left at the start begins with no blank, so it cannot hold blanks only.
    cases hstart : trimStart cs with
    | nil => rfl
    | cons c rest =>
      have hblank := h c (by simp [hstart])
      rw [(trimStart_eq_cons_iff.1 hstart).1] at hblank
      cases hblank
  · intro h
    rw [trimStart_eq_nil_iff.2 h]
    simp

/-! ### The first word -/

/-- The text has this word first: blanks before it, none in it, and behind it a blank or nothing. -/
def FirstWord (cs word : List Char) : Prop :=
  ∃ before behind, cs = before ++ word ++ behind ∧ Blank before ∧ word ≠ [] ∧
    (∀ c ∈ word, isBlank c = false) ∧ ∀ c ∈ behind.head?, isBlank c = true

theorem firstWord?_eq_some_iff {cs word : List Char} :
    firstWord? cs = some word ↔ FirstWord cs word := by
  have hword : firstWord? cs = some word ↔
      word ≠ [] ∧ (trimStart cs).takeWhile (fun c => !isBlank c) = word := by
    unfold firstWord?
    split
    · next h => simp [h, eq_comm]
    · next h =>
      rw [h, Option.some.injEq]
      exact ⟨fun heq => ⟨heq ▸ List.cons_ne_nil _ _, heq⟩, fun heq => heq.2⟩
  rw [hword]
  constructor
  · rintro ⟨hne, rfl⟩
    refine ⟨cs.takeWhile isBlank, (trimStart cs).dropWhile (fun c => !isBlank c), ?_,
      fun c hc => List.mem_takeWhile_imp hc, hne, fun c hc => ?_, fun c hc => ?_⟩
    · rw [List.append_assoc, List.takeWhile_append_dropWhile, trimStart,
        List.takeWhile_append_dropWhile]
    · simpa using List.mem_takeWhile_imp hc
    · have hhead := List.head?_dropWhile_not (fun c => !isBlank c) (trimStart cs)
      rw [hc] at hhead
      simpa using hhead
  · rintro ⟨before, behind, rfl, hbefore, hne, hnone, hbehind⟩
    refine ⟨hne, ?_⟩
    obtain ⟨c, rest, rfl⟩ := List.exists_cons_of_ne_nil hne
    have hc : isBlank c = false := hnone c List.mem_cons_self
    rw [List.append_assoc, trimStart_blank_append hbefore, trimStart, List.cons_append,
      List.dropWhile_cons_of_neg (by simp [hc]), ← List.cons_append,
      List.takeWhile_append_of_pos (by simpa using hnone)]
    cases behind with
    | nil => simp
    | cons d behind =>
      rw [List.takeWhile_cons_of_neg (by simpa using hbehind d rfl), List.append_nil]

/-! ### Up to a character -/

theorem not_mem_takeWhile_ne (c : Char) (cs : List Char) : c ∉ cs.takeWhile (· ≠ c) := by
  intro hc
  simpa using List.mem_takeWhile_imp hc

theorem head?_dropWhile_ne {c : Char} {cs : List Char} :
    ∀ d ∈ (cs.dropWhile (· ≠ c)).head?, d = c := by
  intro d hd
  have hhead := List.head?_dropWhile_not (· ≠ c) cs
  rw [hd] at hhead
  simpa using hhead

/-- A text up to a character is what stands in front of its first one. -/
theorem takeWhile_ne_append {c : Char} {before behind : List Char} (h : c ∉ before)
    (hbehind : ∀ d ∈ behind.head?, d = c) : (before ++ behind).takeWhile (· ≠ c) = before := by
  have hall : ∀ d ∈ before, decide (d ≠ c) = true := fun d hd =>
    decide_eq_true fun heq => h (heq ▸ hd)
  rw [List.takeWhile_append_of_pos hall]
  cases behind with
  | nil => simp
  | cons d behind => rw [List.takeWhile_cons_of_neg (by simpa using hbehind d rfl), List.append_nil]

theorem takeWhile_ne_eq_iff {c : Char} {cs before : List Char} (h : c ∈ cs) :
    cs.takeWhile (· ≠ c) = before ↔ (∃ behind, cs = before ++ c :: behind) ∧ c ∉ before := by
  constructor
  · rintro rfl
    obtain ⟨before, behind, rfl, hbefore⟩ := List.eq_append_cons_of_mem h
    rw [takeWhile_ne_append hbefore (by simp)]
    exact ⟨⟨behind, rfl⟩, hbefore⟩
  · rintro ⟨⟨behind, rfl⟩, hbefore⟩
    exact takeWhile_ne_append hbefore (by simp)

/-! ### Lines -/

/-- A text has these lines. A line ends at the next line feed, or before the carriage return that
stands right in front of it; the last one may end with the text. -/
inductive Lines : List Char → List (List Char) → Prop
  | nil : Lines [] []
  | last {line : List Char} (hne : line ≠ []) (hline : '\n' ∉ line) : Lines line [line]
  | feed {line rest : List Char} {lines : List (List Char)} (hline : '\n' ∉ line)
      (hend : line.getLast? ≠ some '\r') (h : Lines rest lines) :
      Lines (line ++ '\n' :: rest) (line :: lines)
  | returnFeed {line rest : List Char} {lines : List (List Char)} (hline : '\n' ∉ line)
      (h : Lines rest lines) : Lines (line ++ '\r' :: '\n' :: rest) (line :: lines)

/-- A character that ends no line belongs to the first line behind it. -/
theorem cutLines_cons {c : Char} {rest : List Char} (hc : c ≠ '\n')
    (hpair : c = '\r' → rest.head? ≠ some '\n') :
    cutLines (c :: rest) =
      match cutLines rest with
      | [] => [[c]]
      | line :: more => (c :: line) :: more := by
  rw [cutLines.eq_def]
  split
  · next h => cases h
  · next h =>
    cases h
    exact absurd rfl hc
  · next h =>
    cases h
    exact absurd rfl (hpair rfl)
  · next h =>
    cases h
    rfl

/-- What stands in front of the end of a line is in that line. -/
theorem cutLines_append {line behind : List Char} {more : List (List Char)} (hline : '\n' ∉ line)
    (hpair : line.getLast? = some '\r' → behind.head? ≠ some '\n')
    (hbehind : cutLines behind = [] :: more) : cutLines (line ++ behind) = line :: more := by
  induction line with
  | nil => exact hbehind
  | cons c line ih =>
    obtain ⟨hc, hrest⟩ := not_or.1 (List.mem_cons.not.1 hline)
    cases line with
    | nil =>
      rw [List.singleton_append, cutLines_cons (Ne.symm hc), hbehind]
      rintro rfl
      exact hpair rfl
    | cons d line =>
      rw [List.getLast?_cons_cons] at hpair
      rw [List.cons_append, cutLines_cons (Ne.symm hc), ih hrest hpair]
      rintro - hfeed
      exact hrest (List.mem_of_mem_head? hfeed)

theorem cutLines_of_not_mem {line : List Char} (hne : line ≠ []) (hline : '\n' ∉ line) :
    cutLines line = [line] := by
  induction line with
  | nil => exact absurd rfl hne
  | cons c rest ih =>
    obtain ⟨hc, hrest⟩ := not_or.1 (List.mem_cons.not.1 hline)
    rw [cutLines_cons (Ne.symm hc) fun _ hfeed => hrest (List.mem_of_mem_head? hfeed)]
    by_cases hnil : rest = []
    · rw [hnil]
      rfl
    · rw [ih hnil hrest]

theorem Lines.cutLines_eq {cs : List Char} {lines : List (List Char)} (h : Lines cs lines) :
    cutLines cs = lines := by
  induction h with
  | nil => rfl
  | last hne hline => exact cutLines_of_not_mem hne hline
  | feed hline hend _ ih =>
    refine cutLines_append hline (fun hlast => absurd hlast hend) ?_
    rw [cutLines, ih]
  | returnFeed hline _ ih =>
    refine cutLines_append hline (fun _ => by simp) ?_
    rw [cutLines, ih]

/-- A line behind one more character that ends none is a line again. -/
theorem Lines.cons {c : Char} {rest line : List Char} {lines : List (List Char)} (hc : c ≠ '\n')
    (hpair : c = '\r' → rest.head? ≠ some '\n') (h : Lines rest (line :: lines)) :
    Lines (c :: rest) ((c :: line) :: lines) := by
  have hfresh : ∀ {line : List Char}, '\n' ∉ line → '\n' ∉ c :: line := fun hline hmem =>
    (List.mem_cons.1 hmem).elim (fun heq => hc heq.symm) hline
  cases h with
  | last _ hline => exact .last (List.cons_ne_nil c _) (hfresh hline)
  | feed hline hend h =>
    refine @Lines.feed (c :: line) _ _ (hfresh hline) ?_ h
    cases line with
    | nil => exact fun heq => hpair (Option.some.inj heq) rfl
    | cons d more => rwa [List.getLast?_cons_cons]
  | returnFeed hline h => exact @Lines.returnFeed (c :: line) _ _ (hfresh hline) h

/-- **A text is cut into its lines.** -/
theorem cutLines_eq_iff {cs : List Char} {lines : List (List Char)} :
    cutLines cs = lines ↔ Lines cs lines := by
  refine ⟨?_, Lines.cutLines_eq⟩
  rintro rfl
  fun_induction cutLines cs with
  | case1 => exact .nil
  | case2 rest ih => exact @Lines.feed [] _ _ List.not_mem_nil (by simp) ih
  | case3 rest ih => exact @Lines.returnFeed [] _ _ List.not_mem_nil ih
  | case4 c rest hfeed hpair hrest ih =>
    rw [cutLines_eq_nil_iff] at hrest
    rw [hrest]
    exact .last (List.cons_ne_nil c []) fun hmem =>
      hfeed (List.mem_singleton.1 hmem).symm
  | case5 c rest hfeed hpair line more hrest ih =>
    rw [hrest] at ih
    refine ih.cons hfeed fun hreturn hhead => ?_
    obtain ⟨behind, rfl⟩ := List.head?_eq_some_iff.1 hhead
    exact hpair behind hreturn rfl

end AbiGate.Text
