/-
# Styled text

A line of a report is a row of spans, each with a style. On a plain device a span is its text. On
a coloured one a styled text stands between the escape sequence that switches its style on and
the one that resets everything; since a reset inside the text would end the style too early, the
style is switched on again behind each of them.

Key definitions: `Style`, `Span`, `Span.render`, `Text.renderLine`.
-/

namespace AbiGate

/-- A colour of the letters. -/
inductive Color where
  | red
  | green
  | yellow
  deriving DecidableEq, Repr

/-- The number that switches the colour on. -/
def Color.code : Color → String
  | red => "31"
  | green => "32"
  | yellow => "33"

/-- How a text is shown. -/
structure Style where
  bold : Bool := false
  dimmed : Bool := false
  color : Option Color := none
  deriving DecidableEq, Repr

namespace Style

/-- The style of a text without one. -/
def plain : Style := {}

/-- The numbers that switch the style on. -/
def codes (s : Style) : List String :=
  (if s.bold then ["1"] else []) ++ (if s.dimmed then ["2"] else []) ++
    (s.color.map Color.code).toList

/-- The escape sequence that switches the style on. -/
def opening (s : Style) : List Char :=
  '\x1b' :: '[' :: (";".intercalate s.codes).toList ++ ['m']

/-- The escape sequence that ends every style. -/
def reset : List Char :=
  ['\x1b', '[', '0', 'm']

/-- The text with the style switched on again behind each reset. -/
def reopen (opening : List Char) : List Char → List Char
  | '\x1b' :: '[' :: '0' :: 'm' :: rest => reset ++ opening ++ reopen opening rest
  | c :: rest => c :: reopen opening rest
  | [] => []

/-- The text in its style, for a coloured device. -/
def wrap (s : Style) (text : List Char) : List Char :=
  if s = plain then text else s.opening ++ reopen s.opening text ++ reset

end Style

/-- A text and its style. -/
structure Span where
  text : String
  style : Style := .plain
  deriving DecidableEq, Repr

namespace Span

instance : Coe String Span := ⟨fun text => { text }⟩

/-- The characters of a span on a coloured or a plain device. -/
def render (coloured : Bool) (s : Span) : List Char :=
  if coloured then s.style.wrap s.text.toList else s.text.toList

/-- On a plain device a span is its text. -/
@[simp] theorem render_false (s : Span) : s.render false = s.text.toList := rfl

end Span

/-- A row of spans. -/
abbrev StyledLine := List Span

namespace Text

/-- The characters of a line, with its line feed. -/
def renderLine (coloured : Bool) (line : StyledLine) : List Char :=
  line.flatMap (Span.render coloured) ++ ['\n']

/-- The text of lines on a coloured or a plain device. -/
def render (coloured : Bool) (lines : List StyledLine) : String :=
  String.ofList (lines.flatMap (renderLine coloured))

end Text

end AbiGate
