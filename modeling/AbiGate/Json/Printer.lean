/-
# JSON texts, written

Two layouts. The compact one has no blanks. The indented one puts each item of an array and each
member of an object on a line of its own, two spaces deeper than the line it belongs to, and a
space behind a colon; an empty array or object stays `[]` or `\x7b\x7d`.

In both, a string is written with its double quotes, backslashes and control characters below
the space escaped, by a letter where there is one and else by four lower-case hexadecimal
digits; every other character stands for itself.

Key definitions: `Json.compact`, `Json.indented`.
-/
import AbiGate.Json.Basic

namespace AbiGate.Json

/-- The characters that stand for a character inside a string. -/
def escape (c : Char) : List Char :=
  if c = '"' then ['\\', '"']
  else if c = '\\' then ['\\', '\\']
  else if c = '\x08' then ['\\', 'b']
  else if c = '\x0c' then ['\\', 'f']
  else if c = '\n' then ['\\', 'n']
  else if c = '\r' then ['\\', 'r']
  else if c = '\t' then ['\\', 't']
  else if c.toNat < 0x20 then
    ['\\', 'u', '0', '0', Nat.digitChar (c.toNat / 16), Nat.digitChar (c.toNat % 16)]
  else [c]

/-- A string between its quotes. -/
def writeString (s : String) : List Char :=
  '"' :: s.toList.flatMap escape ++ ['"']

/-- The decimal digits of an integer, behind its sign if it is negative. -/
def writeInt : Int → List Char
  | .ofNat n => Nat.toDigits 10 n
  | .negSucc n => '-' :: Nat.toDigits 10 (n + 1)

/-- The text of a value that is neither an array nor an object. -/
def writeAtom : Json → List Char
  | .null => "null".toList
  | .bool true => "true".toList
  | .bool false => "false".toList
  | .integer n => writeInt n
  | .decimal spelling => spelling.toList
  | .string s => writeString s
  | .array _ => []
  | .object _ => []

mutual

/-- The text of a value without blanks. -/
def writeCompact : Json → List Char
  | .array [] => ['[', ']']
  | .array (item :: more) => '[' :: writeCompact item ++ writeCompactItems more
  | .object [] => ['\x7b', '\x7d']
  | .object ((name, value) :: more) =>
    '\x7b' :: writeString name ++ ':' :: writeCompact value ++ writeCompactMembers more
  | atom => writeAtom atom

/-- The items behind the first, and the bracket that ends the array. -/
def writeCompactItems : List Json → List Char
  | [] => [']']
  | item :: more => ',' :: writeCompact item ++ writeCompactItems more

/-- The members behind the first, and the brace that ends the object. -/
def writeCompactMembers : List (String × Json) → List Char
  | [] => ['\x7d']
  | (name, value) :: more =>
    ',' :: writeString name ++ ':' :: writeCompact value ++ writeCompactMembers more

end

/-- A line feed and the blanks that the next line starts with. -/
def newLine (depth : Nat) : List Char :=
  '\n' :: List.replicate (2 * depth) ' '

mutual

/-- The text of a value whose last line is at a depth. -/
def writeIndented (depth : Nat) : Json → List Char
  | .array [] => ['[', ']']
  | .array (item :: more) =>
    '[' :: newLine (depth + 1) ++ writeIndented (depth + 1) item ++
      writeIndentedItems depth more
  | .object [] => ['\x7b', '\x7d']
  | .object ((name, value) :: more) =>
    '\x7b' :: newLine (depth + 1) ++ writeString name ++ ':' :: ' ' ::
      writeIndented (depth + 1) value ++ writeIndentedMembers depth more
  | atom => writeAtom atom

/-- The items behind the first, and the line that ends the array. -/
def writeIndentedItems (depth : Nat) : List Json → List Char
  | [] => newLine depth ++ [']']
  | item :: more =>
    ',' :: newLine (depth + 1) ++ writeIndented (depth + 1) item ++ writeIndentedItems depth more

/-- The members behind the first, and the line that ends the object. -/
def writeIndentedMembers (depth : Nat) : List (String × Json) → List Char
  | [] => newLine depth ++ ['\x7d']
  | (name, value) :: more =>
    ',' :: newLine (depth + 1) ++ writeString name ++ ':' :: ' ' ::
      writeIndented (depth + 1) value ++ writeIndentedMembers depth more

end

/-- The text of the value without blanks. -/
def compact (j : Json) : String :=
  String.ofList (writeCompact j)

/-- The text of the value with an item or a member a line. -/
def indented (j : Json) : String :=
  String.ofList (writeIndented 0 j)

end AbiGate.Json
