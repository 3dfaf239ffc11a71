/-
# The version that a source declares

Only one line of a source counts for its version: the first one that starts, blanks aside, with the
marker. Of that line only what stands between the marker and the next semicolon counts
(`FirstValue`). If this spells a number below 2^64, it is the version; if not, the error names the
line and quotes it. So two sources whose first markers are in lines of the same number and with the
same value have the same version, whatever else they hold.

Key definitions: `Text.Spells`, `VersionMarker.FirstValue`.
Key theorems: `Text.readUInt64?_eq_some_iff`, `VersionMarker.find?_eq_some_iff`,
`VersionMarker.scan_follows_marker`.
-/
import AbiGate.Proofs.Extraction.Tracked
import AbiGate.Proofs.Text.Cuts
import Mathlib.Data.Nat.Digits.Defs

namespace AbiGate

/-! ### Numerals -/

namespace Text

/-- The number that decimal digits stand for. -/
def digitsValue (digits : List Char) : Nat :=
  Nat.ofDigits 10 (digits.reverse.map fun c => c.toNat - '0'.toNat)

/-- The text spells the number: one decimal digit or more, behind a plus sign or not. -/
def Spells (text : List Char) (n : Nat) : Prop :=
  ∃ digits, (text = digits ∨ text = '+' :: digits) ∧ digits ≠ [] ∧
    (∀ c ∈ digits, '0' ≤ c ∧ c ≤ '9') ∧ n = digitsValue digits

theorem digitsValue_cons (c : Char) (digits : List Char) :
    digitsValue (c :: digits) =
      digitsValue digits + 10 ^ digits.length * (c.toNat - '0'.toNat) := by
  unfold digitsValue
  rw [List.reverse_cons, List.map_append, Nat.ofDigits_append]
  simp

/-- Reading digits adds their value to what was read before, moved up by their number. -/
theorem readDigits?_eq_some_iff {cs : List Char} {value n : Nat} :
    readDigits? value cs = some n ↔
      (∀ c ∈ cs, '0' ≤ c ∧ c ≤ '9') ∧ n = digitsValue cs + 10 ^ cs.length * value := by
  induction cs generalizing value with
  | nil => simp [readDigits?, digitsValue, eq_comm]
  | cons c rest ih =>
    unfold readDigits? digitValue?
    by_cases hc : '0' ≤ c ∧ c ≤ '9'
    · have hsum : digitsValue (c :: rest) + 10 ^ (c :: rest).length * value =
          digitsValue rest + 10 ^ rest.length * (10 * value + (c.toNat - '0'.toNat)) := by
        rw [digitsValue_cons, List.length_cons]
        ring
      rw [if_pos hc, hsum, List.forall_mem_cons]
      simp only [ih, hc, and_self, true_and]
    · rw [if_neg hc, List.forall_mem_cons]
      simp [hc]

theorem readNatural?_eq_some_iff {cs : List Char} {n : Nat} :
    readNatural? cs = some n ↔
      cs ≠ [] ∧ (∀ c ∈ cs, '0' ≤ c ∧ c ≤ '9') ∧ n = digitsValue cs := by
  unfold readNatural?
  split
  · simp
  · next hne =>
    rw [readDigits?_eq_some_iff, Nat.mul_zero, Nat.add_zero]
    exact (and_iff_right hne).symm

/-- **A numeral is read exactly if it spells the number.** -/
theorem readNumeral?_eq_some_iff {cs : List Char} {n : Nat} :
    readNumeral? cs = some n ↔ Spells cs n := by
  unfold readNumeral? Spells
  split
  · next rest =>
    rw [readNatural?_eq_some_iff]
    constructor
    · exact fun h => ⟨rest, .inr rfl, h⟩
    · rintro ⟨digits, rfl | heq, hne, hdigits, hn⟩
      · exact absurd (hdigits '+' List.mem_cons_self) (by decide)
      · cases heq
        exact ⟨hne, hdigits, hn⟩
  · next hplus =>
    rw [readNatural?_eq_some_iff]
    constructor
    · exact fun h => ⟨cs, .inl rfl, h⟩
    · rintro ⟨digits, rfl | rfl, h⟩
      · exact h
      · exact absurd rfl (hplus digits)

/-- No numeral wraps around: what is read has the value that is spelled. -/
theorem readUInt64?_eq_some_iff {cs : List Char} {v : UInt64} :
    readUInt64? cs = some v ↔ Spells cs v.toNat := by
  refine ⟨fun h => readNumeral?_eq_some_iff.1 (toNat_of_readUInt64? h), fun h => ?_⟩
  unfold readUInt64?
  rw [readNumeral?_eq_some_iff.2 h]
  simp only [if_pos v.toNat_lt_size, UInt64.ofNat_toNat]

theorem readUInt64?_eq_none_iff {cs : List Char} :
    readUInt64? cs = none ↔ ∀ n, Spells cs n → 2 ^ 64 ≤ n := by
  constructor
  · intro h n hn
    by_contra hlt
    have hread : readUInt64? cs = some (UInt64.ofNat n) := by
      rw [readUInt64?_eq_some_iff, UInt64.toNat_ofNat', Nat.mod_eq_of_lt (Nat.not_le.1 hlt)]
      exact hn
    cases h.symm.trans hread
  · intro h
    cases hread : readUInt64? cs with
    | none => rfl
    | some v =>
      have hle := h v.toNat (readUInt64?_eq_some_iff.1 hread)
      exact absurd v.toNat_lt_size (Nat.not_lt.2 hle)

end Text

/-! ### The line that counts -/

namespace VersionMarker

/-- The first of the lines that starts with the marker, blanks aside, has this number, and behind
the marker it has this value before the next semicolon or the end. -/
def FirstValue (start : List Char) (lines : List (List Char)) (number : Nat)
    (value : List Char) : Prop :=
  ∃ before line after rest, lines = before ++ line :: after ∧ number = before.length + 1 ∧
    (∀ other ∈ before, ¬start <+: Text.trim other) ∧
    Text.trim line = start ++ (value ++ rest) ∧ ';' ∉ value ∧ ∀ c ∈ rest.head?, c = ';'

theorem literal?_eq_some_iff {start line literal : List Char} :
    literal? start line = some literal ↔ ∃ value rest,
      Text.trim line = start ++ (value ++ rest) ∧ ';' ∉ value ∧ (∀ c ∈ rest.head?, c = ';') ∧
      literal = Text.trim value := by
  unfold literal?
  simp only [Option.map_eq_some_iff, List.isPrefixOf?_eq_some_iff_append_eq]
  constructor
  · rintro ⟨behind, hline, rfl⟩
    refine ⟨behind.takeWhile (· ≠ ';'), behind.dropWhile (· ≠ ';'), ?_,
      Text.not_mem_takeWhile_ne ';' behind, Text.head?_dropWhile_ne, rfl⟩
    rw [List.takeWhile_append_dropWhile, hline]
  · rintro ⟨value, rest, hline, hvalue, hrest, rfl⟩
    exact ⟨value ++ rest, hline.symm, by rw [Text.takeWhile_ne_append hvalue hrest]⟩

/-- The search finds the first line that counts. The number of the line is counted on, so the
induction is for every number that the lines may start with. -/
theorem find?_eq_some_iff_append {start : List Char} {lines : List (List Char)}
    {first number : Nat} {literal : List Char} :
    find? start first lines = some (number, literal) ↔ ∃ before line after,
      lines = before ++ line :: after ∧ number = first + before.length ∧
      (∀ other ∈ before, literal? start other = none) ∧ literal? start line = some literal := by
  induction lines generalizing first with
  | nil => simp [find?]
  | cons line rest ih =>
    unfold find?
    cases hliteral : literal? start line with
    | some found =>
      simp only [Option.some.injEq, Prod.mk.injEq]
      constructor
      · rintro ⟨rfl, rfl⟩
        exact ⟨[], line, rest, rfl, rfl, by simp, hliteral⟩
      · rintro ⟨before, line', after, hlines, rfl, hbefore, hline'⟩
        cases before with
        | nil =>
          obtain ⟨rfl, rfl⟩ := List.cons.inj hlines
          exact ⟨rfl, Option.some.inj (hliteral.symm.trans hline')⟩
        | cons other before =>
          obtain ⟨rfl, rfl⟩ := List.cons.inj hlines
          cases hliteral.symm.trans (hbefore line List.mem_cons_self)
    | none =>
      simp only [ih]
      constructor
      · rintro ⟨before, line', after, rfl, rfl, hbefore, hline'⟩
        refine ⟨line :: before, line', after, rfl, ?_, ?_, hline'⟩
        · rw [List.length_cons]
          omega
        · exact List.forall_mem_cons.2 ⟨hliteral, hbefore⟩
      · rintro ⟨before, line', after, hlines, rfl, hbefore, hline'⟩
        cases before with
        | nil =>
          obtain ⟨rfl, rfl⟩ := List.cons.inj hlines
          cases hliteral.symm.trans hline'
        | cons other before =>
          obtain ⟨rfl, rfl⟩ := List.cons.inj hlines
          refine ⟨before, line', after, rfl, ?_, (List.forall_mem_cons.1 hbefore).2, hline'⟩
          rw [List.length_cons]
          omega

theorem find?_eq_some_iff {start : List Char} {lines : List (List Char)} {number : Nat}
    {literal : List Char} :
    find? start 1 lines = some (number, literal) ↔
      ∃ value, FirstValue start lines number value ∧ literal = Text.trim value := by
  rw [find?_eq_some_iff_append]
  simp only [literal?_eq_none_iff, literal?_eq_some_iff]
  constructor
  · rintro ⟨before, line, after, rfl, rfl, hbefore, value, rest, hline, hvalue, hrest, rfl⟩
    exact ⟨value, ⟨before, line, after, rest, rfl, Nat.add_comm .., hbefore, hline, hvalue, hrest⟩,
      rfl⟩
  · rintro ⟨value, ⟨before, line, after, rest, rfl, rfl, hbefore, hline, hvalue, hrest⟩, rfl⟩
    exact ⟨before, line, after, rfl, Nat.add_comm .., hbefore, value, rest, hline, hvalue, hrest,
      rfl⟩

/-- What is scanned is the number that the first value spells. -/
theorem scan_of_firstValue {path : Path} {start source : String} {number : Nat}
    {value : List Char}
    (h : FirstValue start.toList (Text.cutLines source.toList) number value) :
    scan path start source =
      match Text.readUInt64? (Text.trim value) with
      | some version => .ok (some version)
      | none => .error { path, line := number, literal := String.ofList (Text.trim value) } := by
  have hfind := find?_eq_some_iff.2 ⟨value, h, rfl⟩
  unfold scan
  cases hread : Text.readUInt64? (Text.trim value) <;> simp [hfind, hread]

theorem exists_firstValue {start : List Char} {lines : List (List Char)}
    (h : ∃ line ∈ lines, start <+: Text.trim line) :
    ∃ number value, FirstValue start lines number value := by
  cases hfind : find? start 1 lines with
  | none =>
    obtain ⟨line, hline, hstart⟩ := h
    exact absurd hstart (find?_eq_none_iff.1 hfind line hline)
  | some found =>
    obtain ⟨value, hvalue, -⟩ := find?_eq_some_iff.1 hfind
    exact ⟨found.1, value, hvalue⟩

theorem scan_eq_ok_some_iff {path : Path} {start source : String} {version : UInt64} :
    scan path start source = .ok (some version) ↔
      ∃ number value, FirstValue start.toList (Text.cutLines source.toList) number value ∧
        Text.Spells (Text.trim value) version.toNat := by
  simp only [← Text.readUInt64?_eq_some_iff]
  constructor
  · intro h
    have hmarker : ∃ line ∈ Text.cutLines source.toList, start.toList <+: Text.trim line := by
      by_contra hnone
      simp only [not_exists, not_and] at hnone
      cases (scan_eq_ok_none_iff.2 hnone).symm.trans h
    obtain ⟨number, value, hvalue⟩ := exists_firstValue hmarker
    rw [scan_of_firstValue hvalue] at h
    refine ⟨number, value, hvalue, ?_⟩
    cases hread : Text.readUInt64? (Text.trim value) with
    | none => simp [hread] at h
    | some found => simpa [hread] using h
  · rintro ⟨number, value, hvalue, hread⟩
    rw [scan_of_firstValue hvalue, hread]

/-- **The version is what the first marker declares, and nothing else counts.** A source has no
version if no line starts with the marker. If one does, the first such line has a number and a
value: the version is the number below 2^64 that the value spells, and without one the error names
the line and holds the value. Every source whose first marker has this number and this value is
scanned alike. -/
theorem scan_follows_marker (path : Path) (start source : String) :
    ∃ lines, Text.Lines source.toList lines ∧
      (scan path start source = .ok none ↔
        ∀ line ∈ lines, ¬start.toList <+: Text.trim line) ∧
      ((∃ line ∈ lines, start.toList <+: Text.trim line) →
        ∃ number value, FirstValue start.toList lines number value) ∧
      ∀ number value, FirstValue start.toList lines number value →
        (∀ n : UInt64, scan path start source = .ok (some n) ↔
          Text.Spells (Text.trim value) n.toNat) ∧
        (∀ e, scan path start source = .error e ↔
          e = { path, line := number, literal := String.ofList (Text.trim value) } ∧
            ∀ n, Text.Spells (Text.trim value) n → 2 ^ 64 ≤ n) ∧
        ∀ other lines', Text.Lines other.toList lines' →
          FirstValue start.toList lines' number value →
            scan path start other = scan path start source := by
  refine ⟨Text.cutLines source.toList, Text.cutLines_eq_iff.1 rfl, scan_eq_ok_none_iff,
    exists_firstValue, fun number value hvalue => ?_⟩
  rw [scan_of_firstValue hvalue]
  refine ⟨fun n => ?_, fun e => ?_, fun other lines' hlines hother => ?_⟩
  · rw [← Text.readUInt64?_eq_some_iff]
    cases Text.readUInt64? (Text.trim value) <;> simp
  · rw [← Text.readUInt64?_eq_none_iff]
    cases Text.readUInt64? (Text.trim value) <;> simp [eq_comm]
  · rw [← Text.cutLines_eq_iff] at hlines
    rw [← hlines] at hother
    rw [scan_of_firstValue hother]

/-- Of two markers the first one counts, up to its semicolon. -/
example : scan ⟨"Till.sol"⟩ "v =" "contract Till\r\n\tv = +007 ; // v = 8\r\nv = 9" =
    .ok (some 7) := by decide +kernel

end VersionMarker

end AbiGate
