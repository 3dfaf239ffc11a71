/-
# What is read does not depend on the ends of lines

A source is scanned for its version, and the listing of a contract is read, line by line. Of each
line only the trimmed text, the trimmed cells and the first word of a cell count. So blanks behind a
line change nothing, and nothing changes if every line feed of a source, or of what a tool writes,
becomes a carriage return and a line feed.

Key definitions: `Row.readLocated`, `Shell.crlf`.
Key theorems: `VersionMarker.scan_withCrlf`, `Row.read_of_padded`, `Row.readLocated_lines_withCrlf`,
`lineEnds_immaterial`.
-/
import AbiGate.Proofs.Abi.RowGrammar
import AbiGate.Proofs.Text.LineEnds
import AbiGate.Tool.Forge
import Mathlib.Data.List.Forall2

namespace AbiGate

/-! ### Version markers -/

namespace VersionMarker

theorem literal?_of_padded {start line line' : List Char} (h : Text.Padded line line') :
    literal? start line' = literal? start line := by
  unfold literal?
  rw [h.trim_eq]

theorem find?_of_padded {start : List Char} {lines lines' : List (List Char)}
    (h : List.Forall₂ Text.Padded lines lines') (number : Nat) :
    find? start number lines' = find? start number lines := by
  induction h generalizing number with
  | nil => rfl
  | cons hline _ ih =>
    unfold find?
    rw [literal?_of_padded hline, ih]

/-- **A source has the same version, or the same fault, whatever its lines end with.** -/
theorem scan_withCrlf (path : Path) (start source : String) :
    scan path start (Text.withCrlf source) = scan path start source := by
  unfold scan Text.withCrlf
  rw [String.toList_ofList, find?_of_padded (Text.forall₂_padded_cutLines_crlf source.toList)]

end VersionMarker

/-! ### Rows -/

namespace Row

theorem cells_cons_of_ne {c : Char} (hc : c ≠ '|') {rest cell : List Char}
    {more : List (List Char)} (h : cells rest = cell :: more) :
    cells (c :: rest) = (c :: cell) :: more := by
  rw [cells.eq_3 _ _ hc, h]

/-- Blanks behind a row are blanks behind its last cell. -/
theorem forall₂_padded_cells (text : List Char) {behind : List Char} (h : Text.Blank behind) :
    List.Forall₂ Text.Padded (cells text) (cells (text ++ behind)) := by
  induction text with
  | nil =>
    rw [List.nil_append, cells_of_not_mem (bar_not_mem_of_blank h)]
    exact .cons ⟨behind, h, rfl⟩ .nil
  | cons c rest ih =>
    by_cases hc : c = '|'
    · subst hc
      exact .cons (.refl []) ih
    · obtain ⟨more, hcells⟩ := exists_cells_eq_cons rest
      rw [hcells] at ih
      cases hcells' : cells (rest ++ behind) with
      | nil =>
        rw [hcells'] at ih
        cases ih
      | cons cell' more' =>
        rw [hcells'] at ih
        obtain ⟨⟨blanks, hblanks, rfl⟩, hmore⟩ := List.forall₂_cons.1 ih
        rw [List.cons_append, cells_cons_of_ne hc hcells, cells_cons_of_ne hc hcells']
        exact .cons ⟨blanks, hblanks, rfl⟩ hmore

theorem readColumns_of_padded {kind : EntryKind} {columns columns' : List (List Char)}
    (h : List.Forall₂ Text.Padded columns columns') :
    readColumns kind columns' = readColumns kind columns := by
  cases h with
  | nil => rfl
  | @cons second second' more more' hsecond hmore =>
    have hsignature : more'.head?.bind Text.firstWord? = more.head?.bind Text.firstWord? := by
      cases hmore with
      | nil => rfl
      | cons hthird _ =>
        rw [List.head?_cons, List.head?_cons, Option.bind_some, Option.bind_some,
          hthird.firstWord?_eq]
    simp only [readColumns, hsecond.trim_eq, hsignature]

/-- Columns with blanks behind them are read alike, the one that names the kind included. -/
theorem read_bar_of_padded {line line' : String} {rest rest' : List Char}
    (hline : Text.trimStart line.toList = '|' :: rest)
    (hline' : Text.trimStart line'.toList = '|' :: rest')
    (h : List.Forall₂ Text.Padded (cells rest) (cells rest')) : read line' = read line := by
  simp only [read, hline, hline']
  generalize cells rest = columns at h ⊢
  generalize cells rest' = columns' at h ⊢
  cases h with
  | nil => rfl
  | cons hfirst hmore => simp only [hfirst.trim_eq, readColumns_of_padded hmore]

/-- **Blanks behind a row change nothing.** -/
theorem read_of_padded {line line' : String} (h : Text.Padded line.toList line'.toList) :
    read line' = read line := by
  obtain ⟨behind, hbehind, hline⟩ := h
  have hstart := Text.trimStart_append line.toList behind
  rw [← hline] at hstart
  split at hstart
  · next hblank =>
    rw [Text.trimStart_eq_nil_iff.2 hbehind] at hstart
    simp only [read, hstart, Text.trimStart_eq_nil_iff.2 hblank]
  · next hblank =>
    cases hfirst : Text.trimStart line.toList with
    | nil => exact absurd (Text.trimStart_eq_nil_iff.1 hfirst) hblank
    | cons c rest =>
      rw [hfirst, List.cons_append] at hstart
      by_cases hc : c = '|'
      · subst hc
        exact read_bar_of_padded hfirst hstart (forall₂_padded_cells rest hbehind)
      · have hnone : ∀ {line : String} {rest : List Char},
            Text.trimStart line.toList = c :: rest → read line = .ok none := by
          intro line rest hline
          refine read_of_not_opens fun ⟨kind, hopens⟩ => ?_
          obtain ⟨rest', -, -, hbar, -⟩ := opens_iff.1 hopens
          exact hc (List.cons.inj (hline.symm.trans hbar)).1
        rw [hnone hfirst, hnone hstart]

/-! ### Listings -/

/-- The place of the first row that cannot be read, counted from zero. -/
def faultPlace (rows : List String) : Nat :=
  rows.findIdx fun row => !(read row).isOk

/-- What the listing of a contract comes to: its members, or else the place of its first malformed
row and what is wrong there. -/
def readLocated (contract : String) (rows : List String) :
    Except (Nat × RowFault) (List Identifier) :=
  (readAll contract rows).mapError fun e => (faultPlace rows, e.fault)

theorem readLocated_cons (contract row : String) (rest : List String) :
    readLocated contract (row :: rest) =
      match read row with
      | .error fault => .error (0, fault)
      | .ok found =>
        ((readLocated contract rest).mapError fun e => (e.1 + 1, e.2)).map (found.toList ++ ·) := by
  unfold readLocated faultPlace
  simp only [readAll, readFor, List.findIdx_cons]
  cases read row with
  | error fault => rfl
  | ok found => cases readAll contract rest <;> rfl

/-- Of each row only what it is read as counts. -/
theorem readLocated_congr {contract : String} : ∀ {rows rows' : List String},
    List.Forall₂ (fun row row' => read row' = read row) rows rows' →
      readLocated contract rows' = readLocated contract rows
  | [], [], .nil => rfl
  | row :: rest, row' :: rest', .cons hrow hrest => by
    rw [readLocated_cons, readLocated_cons, hrow, readLocated_congr hrest]

/-- **A listing comes to the same whatever its lines end with.** -/
theorem readLocated_lines_withCrlf (contract output : String) :
    readLocated contract (Text.lines (Text.withCrlf output)) =
      readLocated contract (Text.lines output) := by
  refine readLocated_congr ?_
  unfold Text.lines Text.withCrlf
  rw [String.toList_ofList, List.forall₂_map_left_iff, List.forall₂_map_right_iff]
  refine (Text.forall₂_padded_cutLines_crlf output.toList).imp fun line line' h => ?_
  refine read_of_padded ?_
  rwa [String.toList_ofList, String.toList_ofList]

end Row

/-! ### Tools -/

/-- The run with other ends of lines in its output. -/
def Run.crlf (r : Run) : Run :=
  { r with output := Text.Utf8.crlf r.output }

/-- The shell whose programs write a carriage return and a line feed for each line feed. -/
def Shell.crlf {m : Type → Type} [Monad m] (shell : Shell m) : Shell m :=
  fun program directory arguments => (Except.map Run.crlf) <$> shell program directory arguments

theorem Run.result_crlf (r : Run) : r.crlf.result = r.result.map Text.withCrlf := by
  unfold result crlf
  rw [Text.Utf8.decodeLenient_crlf]
  split <;> rfl

/-- What a tool that was run comes to. -/
def toolResult (command : String) (answer : Except StartFault Run) : Except ToolError String :=
  match answer with
  | .error why => .error { command, fault := .notStarted why }
  | .ok run => run.result.mapError fun fault => { command, fault }

section

variable {m : Type → Type} [Monad m] [LawfulMonad m] (shell : Shell m)

theorem run_runTool (program : String) (directory : Path) (arguments : List String) :
    (runTool shell program directory arguments).run =
      toolResult (commandLine program arguments) <$> shell program directory arguments := by
  unfold runTool
  refine (ExceptT.run_bind_lift _ _).trans ?_
  rw [map_eq_pure_bind]
  refine bind_congr fun answer => ?_
  unfold toolResult
  cases answer with
  | error why => rfl
  | ok run => cases hresult : run.result <;> simp only [hresult] <;> rfl

/-- An inspection runs one tool, and lists the lines of its output. -/
theorem Forge.inspect_eq (forge : Forge) (root contract : Path) :
    forge.inspect shell root contract =
      (fun answer => ((toolResult (commandLine forge.program ["inspect", contract.text, "abi"])
          answer).map Text.lines).mapError ToolError.message) <$>
        shell forge.program root ["inspect", contract.text, "abi"] := by
  unfold inspect listing
  simp only [ExceptT.run_bind, run_runTool, map_eq_pure_bind, bind_assoc]
  refine bind_congr fun answer => ?_
  cases toolResult _ answer with
  | error e => simp [Except.map, Except.mapError]
  | ok output => simp [Except.map, Except.mapError]

end

theorem toolResult_crlf (command : String) (answer : Except StartFault Run) :
    toolResult command (answer.map Run.crlf) = (toolResult command answer).map Text.withCrlf := by
  unfold toolResult
  cases answer with
  | error why => rfl
  | ok run =>
    simp only [Except.map, Run.result_crlf]
    cases run.result <;> rfl

/-- **What is read does not depend on the ends of lines.** A source has the same version with a
carriage return and a line feed for each line feed, or the same fault at the same line. And if
forge writes its listing so, the listing of each contract comes to the same members, or has the
same fault at the same row. -/
theorem lineEnds_immaterial {m : Type → Type} [Monad m] [LawfulMonad m] :
    (∀ path start source,
      VersionMarker.scan path start (Text.withCrlf source) =
        VersionMarker.scan path start source) ∧
    ∀ (shell : Shell m) (forge : Forge) (root contract : Path) (name : String),
      (Except.map (Row.readLocated name)) <$> forge.inspect shell.crlf root contract =
        (Except.map (Row.readLocated name)) <$> forge.inspect shell root contract := by
  refine ⟨VersionMarker.scan_withCrlf, fun shell forge root contract name => ?_⟩
  rw [Forge.inspect_eq, Forge.inspect_eq, Shell.crlf, Functor.map_map, Functor.map_map,
    Functor.map_map]
  congr 1
  funext answer
  rw [toolResult_crlf]
  cases toolResult _ answer with
  | error e => rfl
  | ok output => exact congrArg Except.ok (Row.readLocated_lines_withCrlf name output)

/-- A listing whose first row ends with a carriage return of its own and whose second row has no
parameters, from a shell that counts what it runs. -/
theorem lineEnds_immaterial_till :
    let source := "contract Till\n\tv = 7;\r\nv = 8"
    let listing := "| function | pay() | 0x1\r\n| event | Paid | 0x2 |\n"
    let shell : Shell (StateM Nat) := fun _ _ _ runs =>
      (.ok ⟨Text.Utf8.encode listing, [], .status 0⟩, runs + 1)
    LawfulMonad (StateM Nat) ∧
    VersionMarker.scan ⟨"Till.sol"⟩ "v =" (Text.withCrlf source) = .ok (some 7) ∧
    Id.run (StateT.run ((Except.map (Row.readLocated "Till")) <$>
        Forge.inspect shell.crlf ⟨"forge"⟩ ⟨"."⟩ ⟨"Till.sol"⟩) 0) =
      (.ok (.error (1, .noParameters)), 1) := by
  intro source listing shell
  refine ⟨inferInstance, ?_, ?_⟩
  · rw [(lineEnds_immaterial (m := StateM Nat)).1]
    decide +kernel
  · rw [(lineEnds_immaterial (m := StateM Nat)).2]
    decide +kernel

end AbiGate
