/-
# Strings and numbers, read back

A string is read back from what is written for it, whatever it holds: each character is written as
an escape or as itself, and either way it is read as one piece that stands for it. A number is read
back from its decimal digits if it has at most 64 binary ones. A greater number is read as well, but
not as a plain integer.

Key definitions: `Json.pieceOf`.
Key theorems: `Json.cutString?_escape`, `Json.digitsValue_toDigits`, `Json.readAtom?_toDigits`.
-/
import AbiGate.Json.Printer
import AbiGate.Json.Token
import Mathlib.Data.List.TakeWhile
import Mathlib.Tactic.SplitIfs

namespace AbiGate.Json

/-! ### Strings -/

/-- The piece that a character is read as: control characters that have no letter of their own are
named by number. -/
def pieceOf (c : Char) : Piece :=
  if c.toNat < 0x20 ∧ c ∉ ['\x08', '\x0c', '\n', '\r', '\t'] then .unit c.toNat else .char c

theorem hexUnit?_digitChar {n : Nat} (h : n < 0x20) :
    hexUnit? '0' '0' (Nat.digitChar (n / 16)) (Nat.digitChar (n % 16)) = some n := by
  revert n
  decide

/-- A character without an escape is read as itself. -/
theorem cutPieces?_cons {c : Char} (hquote : c ≠ '"') (hslash : c ≠ '\\') (hplain : ¬c.toNat < 0x20)
    (rest : List Char) : cutPieces? (c :: rest) =
      (cutPieces? rest).map fun p => (.char c :: p.1, p.2) := by
  rw [cutPieces?, if_neg hplain]
  · cases cutPieces? rest <;> rfl
  · exact hquote
  · intros; simp_all
  · intros; simp_all

/-- A letter behind a backslash is read as what it stands for. -/
theorem cutPieces?_short {e c : Char} (he : e ≠ 'u') (hc : shortEscape? e = some c)
    (rest : List Char) : cutPieces? ('\\' :: e :: rest) =
      (cutPieces? rest).map fun p => (.char c :: p.1, p.2) := by
  rw [cutPieces?, hc]
  · cases cutPieces? rest <;> rfl
  · intros; simp_all

/-- An escape by number is read as its number. -/
theorem cutPieces?_unit {a b c d : Char} {n : Nat} (h : hexUnit? a b c d = some n)
    (rest : List Char) : cutPieces? ('\\' :: 'u' :: a :: b :: c :: d :: rest) =
      (cutPieces? rest).map fun p => (.unit n :: p.1, p.2) := by
  rw [cutPieces?, h]
  cases cutPieces? rest <;> rfl

/-- What is written for a character is read as its piece. -/
theorem cutPieces?_escape (c : Char) (rest : List Char) : cutPieces? (escape c ++ rest) =
    (cutPieces? rest).map fun p => (pieceOf c :: p.1, p.2) := by
  unfold escape
  split_ifs with hquote hslash hb hf hn hr ht hcontrol
  -- the seven characters with a letter of their own
  iterate 7
    · subst c
      exact cutPieces?_short (by decide) rfl rest
  · have hpiece : pieceOf c = .unit c.toNat := if_pos ⟨hcontrol, by simp [hb, hf, hn, hr, ht]⟩
    rw [hpiece]
    exact cutPieces?_unit (hexUnit?_digitChar hcontrol) rest
  · have hpiece : pieceOf c = .char c := if_neg fun h => hcontrol h.1
    rw [hpiece]
    exact cutPieces?_cons hquote hslash hcontrol rest

theorem joinPieces?_pieceOf (c : Char) (pieces : List Piece) :
    joinPieces? (pieceOf c :: pieces) = (joinPieces? pieces).map (c :: ·) := by
  unfold pieceOf
  split
  · next h =>
    have hlow : ¬(0xD800 ≤ c.toNat ∧ c.toNat < 0xDC00) := by omega
    have hhigh : ¬(0xDC00 ≤ c.toNat ∧ c.toNat < 0xE000) := by omega
    rw [joinPieces?.eq_def]
    simp only [if_neg hlow, if_neg hhigh, Char.ofNat_toNat]
  · rfl

theorem cutPieces?_flatMap_escape (cs rest : List Char) :
    cutPieces? (cs.flatMap escape ++ '"' :: rest) = some (cs.map pieceOf, rest) := by
  induction cs with
  | nil => rfl
  | cons c cs ih =>
    rw [List.flatMap_cons, List.append_assoc, cutPieces?_escape, ih]
    rfl

theorem joinPieces?_map_pieceOf (cs : List Char) : joinPieces? (cs.map pieceOf) = some cs := by
  induction cs with
  | nil => rfl
  | cons c cs ih =>
    rw [List.map_cons, joinPieces?_pieceOf, ih]
    rfl

/-- **A string is read back,** whatever it holds and whatever follows it. -/
theorem cutString?_escape (s : String) (rest : List Char) :
    cutString? (s.toList.flatMap escape ++ '"' :: rest) = some (s, rest) := by
  rw [cutString?, cutPieces?_flatMap_escape]
  simp only [joinPieces?_map_pieceOf, Option.map_some, String.ofList_toList]

/-! ### Numbers -/

theorem digitsValue_toDigits (n : Nat) : digitsValue (Nat.toDigits 10 n) = n :=
  Nat.ofDigitChars_ten_toDigits

theorem isDigit_of_mem_toDigits {n : Nat} {c : Char} (h : c ∈ Nat.toDigits 10 n) :
    isDigit c = true := by
  have hdigit := Nat.isDigit_of_mem_toDigits (by decide) (Nat.le_refl 10) h
  simpa [isDigit, Char.isDigit, Char.le_def] using hdigit

theorem ne_of_isDigit {c d : Char} (h : isDigit c = true) (hd : isDigit d = false) : c ≠ d := by
  rintro rfl
  rw [h] at hd
  cases hd

/-- A word of digits holds no other character. -/
theorem ne_of_mem_toDigits {n : Nat} {c d : Char} (h : c ∈ Nat.toDigits 10 n)
    (hd : isDigit d = false) : c ≠ d :=
  ne_of_isDigit (isDigit_of_mem_toDigits h) hd

/-- Only the number zero is written with a zero in front. -/
theorem head?_toDigits {n : Nat} (h : 0 < n) : (Nat.toDigits 10 n).head? ≠ some '0' := by
  induction n using Nat.strong_induction_on with
  | _ n ih =>
    rw [Nat.toDigits_eq_if (by decide)]
    split
    · next hn =>
      have hdigit : ∀ m < 10, 0 < m → [Nat.digitChar m].head? ≠ some '0' := by decide
      exact hdigit n hn h
    · next hn =>
      obtain ⟨d, rest, hcons⟩ := List.exists_cons_of_ne_nil (Nat.toDigits_ne_nil (n := n / 10))
      have hhead := ih (n / 10) (by omega) (by omega)
      rw [hcons] at hhead ⊢
      exact hhead

theorem isWhole_toDigits (n : Nat) : isWhole (Nat.toDigits 10 n) = true := by
  have hdigits : isDigits (Nat.toDigits 10 n) = true := by
    simp only [isDigits, Bool.and_eq_true, Bool.not_eq_true', List.isEmpty_eq_false_iff,
      List.all_eq_true]
    exact ⟨Nat.toDigits_ne_nil, fun c hc => isDigit_of_mem_toDigits hc⟩
  rw [isWhole, hdigits, Bool.true_and]
  rcases Nat.eq_zero_or_pos n with rfl | hn
  · rfl
  · simp [head?_toDigits hn]

theorem readMagnitude?_toDigits {n : Nat} (h : n < UInt64.size) :
    readMagnitude? (Nat.toDigits 10 n) = some (some n) := by
  have hmantissa : (Nat.toDigits 10 n).takeWhile (fun c => c != 'e' && c != 'E') =
      Nat.toDigits 10 n := by
    rw [List.takeWhile_eq_self_iff]
    intro c hc
    simp [ne_of_mem_toDigits hc (d := 'e') rfl, ne_of_mem_toDigits hc (d := 'E') rfl]
  have hwhole : (Nat.toDigits 10 n).takeWhile (· != '.') = Nat.toDigits 10 n := by
    rw [List.takeWhile_eq_self_iff]
    intro c hc
    simp [ne_of_mem_toDigits hc (d := '.') rfl]
  simp [readMagnitude?, hmantissa, hwhole, isWhole_toDigits, digitsValue_toDigits, h]

/-- **A number of at most 64 binary digits is read back.** -/
theorem readAtom?_toDigits {n : Nat} (h : n < UInt64.size) :
    readAtom? (Nat.toDigits 10 n) = some (.integer n) := by
  have hne {word : List Char} (hword : word.any (!isDigit ·) = true) :
      Nat.toDigits 10 n ≠ word := by
    rintro rfl
    obtain ⟨d, hd, hdigit⟩ := List.any_eq_true.1 hword
    exact ne_of_mem_toDigits hd (by simpa using hdigit) rfl
  have hnumber : readNumber? (Nat.toDigits 10 n) = some (.integer n) := by
    unfold readNumber?
    split
    · next magnitude hminus => exact absurd hminus (hne rfl)
    · rw [readMagnitude?_toDigits h]
  rw [readAtom?, if_neg (hne (by decide)), if_neg (hne (by decide)), if_neg (hne (by decide)),
    hnumber]

end AbiGate.Json
