/-
# Lines

A text is cut at every line feed. A carriage return right before the line feed belongs to the
line's end and is dropped with it; any other one stays in its line, also at the end of a last
line that has no line feed. A text that ends with a line feed has no empty line after it.

Key definitions: `cutLines`, `lines`.
-/

namespace AbiGate.Text

/-- The lines of a text, without their ends. -/
def cutLines : List Char → List (List Char)
  | [] => []
  | '\n' :: rest => [] :: cutLines rest
  | '\r' :: '\n' :: rest => [] :: cutLines rest
  | c :: rest =>
    match cutLines rest with
    | [] => [[c]]
    | line :: more => (c :: line) :: more

/-- `cutLines` on strings. -/
def lines (s : String) : List String :=
  (cutLines s.toList).map String.ofList

/-- Only the empty text has no line. -/
theorem cutLines_eq_nil_iff {cs : List Char} : cutLines cs = [] ↔ cs = [] := by
  constructor
  · intro h
    fun_cases cutLines cs with
    | case1 => rfl
    | case2 => simp [cutLines] at h
    | case3 => simp [cutLines] at h
    | case4 => simp_all [cutLines]
    | case5 => simp_all [cutLines]
  · rintro rfl
    rfl

end AbiGate.Text
