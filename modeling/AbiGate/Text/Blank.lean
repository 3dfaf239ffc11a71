/-
# White space

The code points with the Unicode property White_Space, and the cuts of a text that depend on
them: what is left when blanks are taken off an end, and the first run of other characters.

Key definitions: `isBlank`, `trimStart`, `trim`, `firstWord?`.
-/

namespace AbiGate.Text

/-- The ranges of code points with the property White_Space, ends included. -/
def blankRanges : List (Nat × Nat) :=
  [(0x09, 0x0D), (0x20, 0x20), (0x85, 0x85), (0xA0, 0xA0), (0x1680, 0x1680), (0x2000, 0x200A),
    (0x2028, 0x2029), (0x202F, 0x202F), (0x205F, 0x205F), (0x3000, 0x3000)]

/-- A blank is a code point with the property White_Space. -/
def isBlank (c : Char) : Bool :=
  blankRanges.any fun r => r.1 ≤ c.toNat && c.toNat ≤ r.2

/-- The text without the blanks it starts with. -/
def trimStart (cs : List Char) : List Char :=
  cs.dropWhile isBlank

/-- The text without the blanks it ends with. -/
def trimEnd (cs : List Char) : List Char :=
  (cs.reverse.dropWhile isBlank).reverse

/-- The text without the blanks at either end. -/
def trim (cs : List Char) : List Char :=
  trimEnd (trimStart cs)

/-- `trim` on strings. -/
def trimmed (s : String) : String :=
  String.ofList (trim s.toList)

/-- The first run of characters that are no blanks, if the text has one. -/
def firstWord? (cs : List Char) : Option (List Char) :=
  match (trimStart cs).takeWhile (fun c => !isBlank c) with
  | [] => none
  | c :: word => some (c :: word)

/-! ### What the cuts leave -/

/-- A character that core calls white space is a blank. -/
theorem isBlank_of_isWhitespace {c : Char} (h : c.isWhitespace = true) : isBlank c = true := by
  simp only [Char.isWhitespace, Bool.or_eq_true, decide_eq_true_eq] at h
  rcases h with ((rfl | rfl) | rfl) | rfl <;> rfl

/-- The first word holds no blank. -/
theorem not_isBlank_of_mem_firstWord? {cs word : List Char} (h : firstWord? cs = some word) :
    ∀ c ∈ word, isBlank c = false := by
  unfold firstWord? at h
  split at h
  · cases h
  · next d rest hd =>
    cases h
    intro c hc
    have := List.all_takeWhile (p := fun c => !isBlank c) (l := trimStart cs)
    rw [hd, List.all_eq_true] at this
    simpa using this c hc

/-- The first word is never empty. -/
theorem firstWord?_ne_nil {cs : List Char} : firstWord? cs ≠ some [] := by
  unfold firstWord?
  split <;> simp

end AbiGate.Text
