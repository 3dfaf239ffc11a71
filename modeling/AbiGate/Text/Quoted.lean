/-
# Quoted text

A text inside a message stands between double quotes, with everything escaped that would end it
or could not be seen: the double quote, the backslash, and formless code points. Five of these
have a short escape; any other formless one is written by its number in hexadecimal.

Key definitions: `escape`, `quoted`.
-/
import AbiGate.Text.Formless

namespace AbiGate.Text

/-- The characters that stand for a code point between the quotes. -/
def escape (c : Char) : List Char :=
  if c = '\x00' then ['\\', '0']
  else if c = '\t' then ['\\', 't']
  else if c = '\n' then ['\\', 'n']
  else if c = '\r' then ['\\', 'r']
  else if c = '"' then ['\\', '"']
  else if c = '\\' then ['\\', '\\']
  else if isFormless c then ['\\', 'u', '\x7b'] ++ Nat.toDigits 16 c.toNat ++ ['\x7d']
  else [c]

/-- The text between double quotes. -/
def quoted (s : String) : String :=
  String.ofList ('"' :: s.toList.flatMap escape ++ ['"'])

end AbiGate.Text
