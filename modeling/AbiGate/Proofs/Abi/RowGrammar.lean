/-
# The grammar of rows

What a row says is told by its text alone: behind blanks and a bar stands a column that names a
kind (`Opens`), then a bar, a column with a declaration, a bar, and behind it a signature
(`Describes`). Reading a row comes to the member that the row describes. It calls a row malformed
if the row opens with a kind and describes nothing, and passes over a row that opens with none.

A member that is printed as a row is read back, whatever the blanks around the columns and the
columns behind them, and whether or not a bar closes the last one.

Key definitions: `Row.Opens`, `Row.Describes`, `Row.Layout.print`, `Row.Printable`.
Key theorems: `Row.readColumns_eq_ok_iff`, `Row.read_eq_ok_some_iff`, `Row.describes_print`,
`Row.readFor_follows_grammar`.
-/
import AbiGate.Proofs.Abi.Listing
import AbiGate.Proofs.Text.Cuts

namespace AbiGate

namespace Row

/-! ### The grammar -/

/-- The first column of the row, up to the next bar or the end, names the kind. -/
def Opens (line : String) (kind : EntryKind) : Prop :=
  ∃ indent first rest, line.toList = indent ++ '|' :: (first ++ rest) ∧ Text.Blank indent ∧
    '|' ∉ first ∧ (∀ c ∈ rest.head?, c = '|') ∧ Text.trim first = kind.word.toList

/-- Two columns, and what is left behind the bar that ends the second, show a member. -/
structure Shows (first second rest : List Char) (i : Identifier) : Prop where
  kind_eq : Text.trim first = i.kind.word.toList
  declaration_eq : Text.trim second = i.declaration.toList
  /-- The name stands in the declaration before its first parenthesis. -/
  name_start : ∃ parameters, i.declaration.toList = i.name.toList ++ '(' :: parameters
  name_free : '(' ∉ i.name.toList
  name_not_blank : ¬Text.Blank i.name.toList
  /-- The signature is the first word up to the next bar or the end. -/
  signature_first : Text.FirstWord (rest.takeWhile (· ≠ '|')) i.signature.toList

/-- The row has two columns between its first three bars, and describes a member. -/
def Describes (line : String) (i : Identifier) : Prop :=
  ∃ indent first second rest,
    line.toList = indent ++ '|' :: (first ++ '|' :: (second ++ '|' :: rest)) ∧
    Text.Blank indent ∧ '|' ∉ first ∧ '|' ∉ second ∧ Shows first second rest i

/-! ### Cells -/

theorem cells_append {cell : List Char} (h : '|' ∉ cell) (rest : List Char) :
    cells (cell ++ '|' :: rest) = cell :: cells rest := by
  induction cell with
  | nil => rfl
  | cons c cell ih =>
    obtain ⟨hc, hcell⟩ := not_or.1 (List.mem_cons.not.1 h)
    rw [List.cons_append, cells.eq_3 _ _ (Ne.symm hc), ih hcell]

theorem cells_of_not_mem {cell : List Char} (h : '|' ∉ cell) : cells cell = [cell] := by
  induction cell with
  | nil => rfl
  | cons c cell ih =>
    obtain ⟨hc, hcell⟩ := not_or.1 (List.mem_cons.not.1 h)
    rw [cells.eq_3 _ _ (Ne.symm hc), ih hcell]

/-- A text has one cell, or a cell before the first bar and those behind it. -/
theorem cells_cases (text : List Char) :
    ('|' ∉ text ∧ cells text = [text]) ∨
      ∃ cell rest, text = cell ++ '|' :: rest ∧ '|' ∉ cell ∧ cells text = cell :: cells rest := by
  by_cases h : '|' ∈ text
  · obtain ⟨cell, rest, rfl, hcell⟩ := List.eq_append_cons_of_mem h
    exact .inr ⟨cell, rest, rfl, hcell, cells_append hcell rest⟩
  · exact .inl ⟨h, cells_of_not_mem h⟩

theorem exists_cells_eq_cons (text : List Char) :
    ∃ more, cells text = text.takeWhile (· ≠ '|') :: more := by
  rcases cells_cases text with ⟨hbar, hcells⟩ | ⟨cell, rest, rfl, hcell, hcells⟩
  · have hwhole : (text ++ []).takeWhile (· ≠ '|') = text :=
      Text.takeWhile_ne_append hbar (by simp)
    rw [List.append_nil] at hwhole
    exact ⟨[], by rw [hcells, hwhole]⟩
  · exact ⟨cells rest, by rw [hcells, Text.takeWhile_ne_append hcell (by simp)]⟩

/-- The first of two cells or more ends at a bar. -/
theorem cells_eq_cons_cons_iff {text first second : List Char} {more : List (List Char)} :
    cells text = first :: second :: more ↔
      ∃ rest, text = first ++ '|' :: rest ∧ '|' ∉ first ∧ cells rest = second :: more := by
  constructor
  · intro h
    rcases cells_cases text with ⟨-, hcells⟩ | ⟨cell, rest, rfl, hcell, hcells⟩
    · cases hcells.symm.trans h
    · obtain ⟨rfl, hrest⟩ := List.cons.inj (hcells.symm.trans h)
      exact ⟨rest, rfl, hcell, hrest⟩
  · rintro ⟨rest, rfl, hfirst, hrest⟩
    rw [cells_append hfirst, hrest]

/-! ### The columns behind the kind -/

/-- **The columns behind a kind are read as the member that they show.** -/
theorem readColumns_eq_ok_iff {kind : EntryKind} {columns : List (List Char)} {i : Identifier} :
    readColumns kind columns = .ok i ↔ ∃ second third more, columns = second :: third :: more ∧
      kind = i.kind ∧ Text.trim second = i.declaration.toList ∧
      (∃ parameters, i.declaration.toList = i.name.toList ++ '(' :: parameters) ∧
      '(' ∉ i.name.toList ∧ ¬Text.Blank i.name.toList ∧
      Text.FirstWord third i.signature.toList := by
  unfold readColumns
  constructor
  · intro h
    split at h
    · cases h
    · next second more =>
      simp only at h
      split at h
      · cases h
      split at h
      · cases h
      next hparen =>
      split at h
      · cases h
      next hname =>
      split at h
      · next signature hsignature =>
        cases h
        have hmem : '(' ∈ Text.trim second := by simpa using hparen
        obtain ⟨hstart, hfree⟩ := (Text.takeWhile_ne_eq_iff hmem).1 rfl
        obtain ⟨third, hthird, hfirst⟩ := Option.bind_eq_some_iff.1 hsignature
        obtain ⟨more, rfl⟩ := List.head?_eq_some_iff.1 hthird
        refine ⟨second, third, more, rfl, rfl, ?_⟩
        simp only [Identifier.declared, Identifier.nameOf, String.toList_ofList]
        refine ⟨trivial, hstart, hfree, ?_, Text.firstWord?_eq_some_iff.1 hfirst⟩
        rw [← Text.trim_eq_nil_iff]
        simpa using hname
      · cases h
  · rintro ⟨second, third, more, rfl, rfl, hdeclaration, hstart, hfree, hname, hfirst⟩
    have hmem : '(' ∈ i.declaration.toList := by
      obtain ⟨parameters, heq⟩ := hstart
      rw [heq]
      simp
    have hcut : i.declaration.toList.takeWhile (· ≠ '(') = i.name.toList :=
      (Text.takeWhile_ne_eq_iff hmem).2 ⟨hstart, hfree⟩
    have hne : i.declaration.toList ≠ [] := List.ne_nil_of_mem hmem
    simp only [hdeclaration, hcut, List.head?_cons, Option.bind_some,
      Text.firstWord?_eq_some_iff.2 hfirst]
    rw [if_neg (by simpa using hne), if_neg (by simpa using hmem),
      if_neg (by simpa [Text.trim_eq_nil_iff] using hname)]
    simp only [Identifier.declared, Identifier.nameOf, String.ofList_toList, hcut]

/-! ### A line -/

theorem trimStart_eq_bar_iff {cs rest : List Char} :
    Text.trimStart cs = '|' :: rest ↔ ∃ indent, Text.Blank indent ∧ cs = indent ++ '|' :: rest := by
  rw [Text.trimStart_eq_cons_iff]
  exact and_iff_right (by decide)

/-- Behind the first bar of a row that opens with a kind is a cell that names it. -/
theorem opens_iff {line : String} {kind : EntryKind} :
    Opens line kind ↔ ∃ rest first columns, Text.trimStart line.toList = '|' :: rest ∧
      cells rest = first :: columns ∧ Text.trim first = kind.word.toList := by
  constructor
  · rintro ⟨indent, first, rest, hline, hindent, hfirst, hrest, hkind⟩
    obtain ⟨columns, hcells⟩ := exists_cells_eq_cons (first ++ rest)
    rw [Text.takeWhile_ne_append hfirst hrest] at hcells
    exact ⟨first ++ rest, first, columns, trimStart_eq_bar_iff.2 ⟨indent, hindent, hline⟩, hcells,
      hkind⟩
  · rintro ⟨rest, first, columns, hline, hcells, hkind⟩
    obtain ⟨indent, hindent, hline⟩ := trimStart_eq_bar_iff.1 hline
    obtain ⟨more, hmore⟩ := exists_cells_eq_cons rest
    obtain ⟨rfl, -⟩ := List.cons.inj (hcells.symm.trans hmore)
    refine ⟨indent, rest.takeWhile (· ≠ '|'), rest.dropWhile (· ≠ '|'), ?_, hindent,
      Text.not_mem_takeWhile_ne '|' rest, Text.head?_dropWhile_ne, hkind⟩
    rw [List.takeWhile_append_dropWhile, hline]

theorem read_of_cells {line : String} {kind : EntryKind} {rest first : List Char}
    {columns : List (List Char)} (hline : Text.trimStart line.toList = '|' :: rest)
    (hcells : cells rest = first :: columns) (hkind : Text.trim first = kind.word.toList) :
    read line = (readColumns kind columns).map some := by
  have hword : EntryKind.ofWord? (String.ofList (Text.trim first)) = some kind := by
    rw [EntryKind.ofWord?_eq_some_iff, hkind, String.ofList_toList]
  unfold read
  simp only [hline, hcells, hword]

/-- A row that opens with no kind tells nothing. -/
theorem read_of_not_opens {line : String} (h : ¬∃ kind, Opens line kind) :
    read line = .ok none := by
  unfold read
  split
  · next rest hline =>
    split
    · rfl
    · next first columns hcells =>
      split
      · next kind hword =>
        have hkind : Text.trim first = kind.word.toList := by
          rw [← EntryKind.ofWord?_eq_some_iff.1 hword, String.toList_ofList]
        exact absurd ⟨kind, opens_iff.2 ⟨rest, first, columns, hline, hcells, hkind⟩⟩ h
      · rfl
  · rfl

/-- **A row is read as the member that it describes.** -/
theorem read_eq_ok_some_iff {line : String} {i : Identifier} :
    read line = .ok (some i) ↔ Describes line i := by
  constructor
  · intro h
    have hopens : ∃ kind, Opens line kind := by
      by_contra hnone
      cases (read_of_not_opens hnone).symm.trans h
    obtain ⟨kind, hkind⟩ := hopens
    obtain ⟨text, first, columns, hline, hcells, hword⟩ := opens_iff.1 hkind
    rw [read_of_cells hline hcells hword] at h
    obtain ⟨j, hread, hj⟩ : ∃ j, readColumns kind columns = .ok j ∧ j = i := by
      cases hread : readColumns kind columns with
      | error fault =>
        rw [hread] at h
        cases h
      | ok j =>
        rw [hread] at h
        exact ⟨j, rfl, Option.some.inj (Except.ok.inj h)⟩
    rw [hj] at hread
    obtain ⟨second, third, more, rfl, rfl, hdeclaration, hstart, hfree, hname, hsignature⟩ :=
      readColumns_eq_ok_iff.1 hread
    obtain ⟨indent, hindent, hline⟩ := trimStart_eq_bar_iff.1 hline
    obtain ⟨behind, rfl, hfirst, hbehind⟩ := cells_eq_cons_cons_iff.1 hcells
    obtain ⟨rest, rfl, hsecond, hrest⟩ := cells_eq_cons_cons_iff.1 hbehind
    obtain ⟨columns, hcolumns⟩ := exists_cells_eq_cons rest
    obtain ⟨rfl, -⟩ := List.cons.inj (hrest.symm.trans hcolumns)
    exact ⟨indent, first, second, rest, hline, hindent, hfirst, hsecond, hword, hdeclaration,
      hstart, hfree, hname, hsignature⟩
  · rintro ⟨indent, first, second, rest, hline, hindent, hfirst, hsecond, hshows⟩
    obtain ⟨more, hrest⟩ := exists_cells_eq_cons rest
    have hread : readColumns i.kind (second :: rest.takeWhile (· ≠ '|') :: more) = .ok i :=
      readColumns_eq_ok_iff.2 ⟨second, _, more, rfl, rfl, hshows.declaration_eq,
        hshows.name_start, hshows.name_free, hshows.name_not_blank, hshows.signature_first⟩
    rw [read_of_cells (trimStart_eq_bar_iff.2 ⟨indent, hindent, hline⟩)
      (cells_append hfirst _) hshows.kind_eq, cells_append hsecond, hrest, hread]
    rfl

/-- A row tells nothing exactly if it opens with no kind. -/
theorem read_eq_ok_none_iff {line : String} :
    read line = .ok none ↔ ¬∃ kind, Opens line kind := by
  refine ⟨?_, read_of_not_opens⟩
  rintro h ⟨kind, hopens⟩
  obtain ⟨rest, first, columns, hline, hcells, hkind⟩ := opens_iff.1 hopens
  rw [read_of_cells hline hcells hkind] at h
  cases hread : readColumns kind columns with
  | error fault =>
    rw [hread] at h
    cases h
  | ok i =>
    rw [hread] at h
    cases h

/-- A row cannot be read exactly if it opens with a kind and describes nothing. -/
theorem exists_read_eq_error_iff {line : String} :
    (∃ fault, read line = .error fault) ↔
      (∃ kind, Opens line kind) ∧ ¬∃ i, Describes line i := by
  simp only [← read_eq_ok_some_iff]
  rw [← not_not (a := ∃ kind, Opens line kind), ← read_eq_ok_none_iff]
  rcases read line with fault | _ | i <;> simp

theorem exists_read_eq_ok_iff {line : String} :
    (∃ found, read line = .ok found) ↔ ((∃ kind, Opens line kind) → ∃ i, Describes line i) := by
  rw [← not_iff_not, Classical.not_imp, ← exists_read_eq_error_iff]
  cases read line <;> simp

/-! ### Printed rows -/

/-- The blanks around the text of a column. -/
structure Padding where
  before : List Char
  behind : List Char
  blank_before : Text.Blank before
  blank_behind : Text.Blank behind

/-- A column: its text between blanks. -/
def Padding.column (p : Padding) (text : String) : List Char :=
  p.before ++ text.toList ++ p.behind

/-- How a row is spelled around what it says. -/
structure Layout where
  indent : List Char
  blank_indent : Text.Blank indent
  kind : Padding
  declaration : Padding
  signature : Padding
  /-- What stands behind the bar that closes the signature's column, if a bar closes it. -/
  further : Option (List Char)

/-- What follows the signature's column. -/
def Layout.tail (l : Layout) : List Char :=
  l.further.elim [] ('|' :: ·)

/-- The row of a member. -/
def Layout.print (l : Layout) (i : Identifier) : String :=
  String.ofList (l.indent ++ '|' :: (l.kind.column i.kind.word ++
    '|' :: (l.declaration.column i.declaration ++
      '|' :: (l.signature.column i.signature ++ l.tail))))

/-- A declaration and a signature that a row can spell. -/
structure Printable (declaration signature : String) : Prop where
  trimmed : Text.trim declaration.toList = declaration.toList
  declaration_free : '|' ∉ declaration.toList
  has_parameters : '(' ∈ declaration.toList
  named : ¬Text.Blank (Identifier.nameOf declaration).toList
  signature_ne : signature ≠ ""
  signature_solid : ∀ c ∈ signature.toList, Text.isBlank c = false
  signature_free : '|' ∉ signature.toList

theorem bar_not_mem_of_blank {cs : List Char} (h : Text.Blank cs) : '|' ∉ cs :=
  fun hmem => absurd (h '|' hmem) (by decide)

theorem Padding.bar_not_mem_column (p : Padding) {text : String} (h : '|' ∉ text.toList) :
    '|' ∉ p.column text := by
  simp only [column, List.mem_append, not_or]
  exact ⟨⟨bar_not_mem_of_blank p.blank_before, h⟩, bar_not_mem_of_blank p.blank_behind⟩

theorem Padding.trim_column (p : Padding) (text : String) :
    Text.trim (p.column text) = Text.trim text.toList :=
  Text.trim_padded p.blank_before p.blank_behind text.toList

theorem Layout.head?_tail (l : Layout) : ∀ c ∈ l.tail.head?, c = '|' := by
  intro c hc
  unfold tail at hc
  cases hfurther : l.further with
  | none =>
    rw [hfurther] at hc
    cases hc
  | some text =>
    rw [hfurther] at hc
    cases hc
    rfl

/-- A printed row describes what was printed, in any layout. -/
theorem describes_print (l : Layout) (kind : EntryKind) {declaration signature : String}
    (h : Printable declaration signature) :
    Describes (l.print (.declared kind declaration signature))
      (.declared kind declaration signature) := by
  have hkind : '|' ∉ kind.word.toList ∧ Text.trim kind.word.toList = kind.word.toList := by
    cases kind <;> decide +kernel
  have hcut := (Text.takeWhile_ne_eq_iff h.has_parameters).1 rfl
  refine ⟨l.indent, l.kind.column kind.word, l.declaration.column declaration,
    l.signature.column signature ++ l.tail, ?_, l.blank_indent,
    l.kind.bar_not_mem_column hkind.1, l.declaration.bar_not_mem_column h.declaration_free, ?_⟩
  · simp [Layout.print, Identifier.declared]
  refine
    { kind_eq := by rw [Padding.trim_column, hkind.2]; rfl
      declaration_eq := by rw [Padding.trim_column, h.trimmed]; rfl
      name_start := ?_
      name_free := ?_
      name_not_blank := h.named
      signature_first := ?_ }
  · simpa [Identifier.declared, Identifier.nameOf] using hcut.1
  · simpa [Identifier.declared, Identifier.nameOf] using hcut.2
  · rw [Text.takeWhile_ne_append (l.signature.bar_not_mem_column h.signature_free) l.head?_tail]
    refine ⟨l.signature.before, l.signature.behind, rfl, l.signature.blank_before, ?_,
      h.signature_solid, fun c hc => l.signature.blank_behind c (List.mem_of_mem_head? hc)⟩
    exact fun hnil => h.signature_ne (String.toList_eq_nil_iff.1 hnil)

/-! ### Reading for a contract -/

theorem readFor_eq_error_iff {contract line : String} {fault : RowFault} :
    readFor contract line = .error { contract, row := line, fault } ↔
      read line = .error fault := by
  unfold readFor
  cases read line with
  | ok found => simp
  | error fault => simp

/-- **Rows are read by their grammar.** A row gives the member that it describes. It is malformed,
and the error carries it, if it opens with a kind and describes nothing. It gives nothing if it
opens with no kind. What is printed as a row, in any layout, is read back. -/
theorem readFor_follows_grammar (contract line : String) :
    (∀ i, readFor contract line = .ok (some i) ↔ Describes line i) ∧
    ((∃ fault, readFor contract line = .error { contract, row := line, fault }) ↔
      (∃ kind, Opens line kind) ∧ ¬∃ i, Describes line i) ∧
    (readFor contract line = .ok none ↔ ¬∃ kind, Opens line kind) ∧
    ∀ (l : Layout) (kind : EntryKind) (declaration signature : String),
      Printable declaration signature →
        readFor contract (l.print (.declared kind declaration signature)) =
          .ok (some (.declared kind declaration signature)) := by
  refine ⟨fun i => ?_, ?_, ?_, fun l kind declaration signature h => ?_⟩
  · rw [readFor_eq_ok_iff, read_eq_ok_some_iff]
  · simp only [readFor_eq_error_iff, exists_read_eq_error_iff]
  · rw [readFor_eq_ok_iff, read_eq_ok_none_iff]
  · rw [readFor_eq_ok_iff, read_eq_ok_some_iff]
    exact describes_print l kind h

/-- Blanks of any kind pad the columns; behind the signature anything may stand. -/
example : readFor "Till" "\u00a0|\tevent|Paid (address) |  0x1 note|more" =
    .ok (some (.declared .event "Paid (address)" "0x1")) := by decide +kernel

end Row

end AbiGate
