/-
# TOML tokens

A TOML text is a row of tokens. A word is a longest run of characters that keys without quotes,
numbers, truth values and points in time are made of; which of these it is depends on its place.
Blanks are kept, because two brackets next to each other are not two brackets with a blank
between them. Comments are left out: one always reaches to the end of its line, which is kept.

The text is read character by character. What has been read of an unfinished token is the state
of the reader.

Key definitions: `Toml.Token`, `Toml.Scan`, `Toml.Scan.step?`, `Toml.tokens?`.
-/
import AbiGate.Json.Token

namespace AbiGate.Toml

/-- A token of a TOML text. -/
inductive Token where
  | word (spelling : String)
  /-- A string on one line. -/
  | text (value : String)
  /-- A string between triple quotes. -/
  | longText (value : String)
  /-- A run of blanks; `single` if it is one space. -/
  | blank (single : Bool)
  | newline
  | openBracket
  | closeBracket
  | openBrace
  | closeBrace
  | comma
  | equals
  deriving DecidableEq, Repr

def Token.isBlank : Token → Bool
  | blank _ => true
  | _ => false

/-- The quotes of a string: double ones, with escapes between them, or single ones, with none. -/
inductive Quote where
  | double
  | single
  deriving DecidableEq, Repr

def Quote.char : Quote → Char
  | double => '"'
  | single => '\''

/-- What has been read of an unfinished token. Contents of strings are kept last character
first. -/
inductive Scan where
  | between
  | word (spelling : List Char)
  | blank (single : Bool)
  | comment
  /-- Behind a carriage return that a line feed must follow. -/
  | lineReturn
  /-- Behind the first quote of a string. -/
  | opened (q : Quote)
  /-- Behind two quotes: an empty string, or the start of a long one. -/
  | openedTwice (q : Quote)
  | short (q : Quote) (content : List Char)
  /-- Behind the three quotes that a long string starts with. -/
  | longStart (q : Quote)
  | longStartReturn (q : Quote)
  | long (q : Quote) (content : List Char)
  | longReturn (q : Quote) (content : List Char)
  /-- Behind quotes in a long string, which are content or its end. -/
  | longQuotes (q : Quote) (content : List Char) (number : Nat)
  | escape (isLong : Bool) (content : List Char)
  /-- In an escape by number, with the value so far and the number of digits that it lacks. -/
  | codePoint (isLong : Bool) (content : List Char) (value missing : Nat)
  /-- Behind a backslash and blanks that a line's end must follow. -/
  | escapedBlank (content : List Char)
  | escapedReturn (content : List Char)
  /-- Behind an escaped line's end; blanks and further ends are left out. -/
  | skipping (content : List Char)
  | skippingReturn (content : List Char)
  deriving DecidableEq, Repr

/-- Whether a character can belong to a word. -/
def inWord (c : Char) : Bool :=
  c.isAlphanum || c = '_' || c = '-' || c = '+' || c = '.' || c = ':'

/-- Whether a character can stand in a comment or a string. -/
def isPlain (c : Char) : Bool :=
  c = '\t' || (' ' ≤ c && c ≤ '~') || '\x7f' < c

/-- Whether a number is that of a character. -/
def isScalar (n : Nat) : Bool :=
  n < 0xD800 || (0xE000 ≤ n && n < 0x110000)

namespace Scan

/-- Reads a character where a token may start. -/
def start? (c : Char) : Option (Scan × List Token) :=
  match c with
  | ' ' => some (.blank true, [])
  | '\t' => some (.blank false, [])
  | '\n' => some (.between, [.newline])
  | '\r' => some (.lineReturn, [])
  | '#' => some (.comment, [])
  | '"' => some (.opened .double, [])
  | '\'' => some (.opened .single, [])
  | '[' => some (.between, [.openBracket])
  | ']' => some (.between, [.closeBracket])
  | '\x7b' => some (.between, [.openBrace])
  | '\x7d' => some (.between, [.closeBrace])
  | ',' => some (.between, [.comma])
  | '=' => some (.between, [.equals])
  | c => if inWord c then some (.word [c], []) else none

/-- Reads a character behind a token. -/
def startBehind? (token : Token) (c : Char) : Option (Scan × List Token) :=
  (start? c).map fun (scan, more) => (scan, token :: more)

/-- The text of a content that is kept last character first. -/
def textOf (content : List Char) : String :=
  String.ofList content.reverse

/-- Where an escape in a string leads back to. -/
def inString (isLong : Bool) (content : List Char) : Scan :=
  if isLong then .long .double content else .short .double content

/-- Reads a character of a string on one line. -/
def shortStep? (q : Quote) (content : List Char) (c : Char) : Option (Scan × List Token) :=
  if c = q.char then some (.between, [.text (textOf content)])
  else if c = '\\' ∧ q = .double then some (.escape false content, [])
  else if isPlain c then some (.short q (c :: content), [])
  else none

/-- Reads a character of a long string. -/
def longStep? (q : Quote) (content : List Char) (c : Char) : Option (Scan × List Token) :=
  if c = q.char then some (.longQuotes q content 1, [])
  else if c = '\\' ∧ q = .double then some (.escape true content, [])
  else if c = '\n' then some (.long q (c :: content), [])
  else if c = '\r' then some (.longReturn q content, [])
  else if isPlain c then some (.long q (c :: content), [])
  else none

/-- The long string that ends with more quotes than the three it has to. -/
def longEnd (q : Quote) (content : List Char) (number : Nat) : Token :=
  .longText (textOf (List.replicate (number - 3) q.char ++ content))

/-- Reads the character behind a backslash. -/
def escapeStep? (isLong : Bool) (content : List Char) (c : Char) :
    Option (Scan × List Token) :=
  let char := fun d => some (inString isLong (d :: content), [])
  match c with
  | 'b' => char '\x08'
  | 't' => char '\t'
  | 'n' => char '\n'
  | 'f' => char '\x0c'
  | 'r' => char '\r'
  | '"' => char '"'
  | '\\' => char '\\'
  | 'u' => some (.codePoint isLong content 0 4, [])
  | 'U' => some (.codePoint isLong content 0 8, [])
  | ' ' => if isLong then some (.escapedBlank content, []) else none
  | '\t' => if isLong then some (.escapedBlank content, []) else none
  | '\n' => if isLong then some (.skipping content, []) else none
  | '\r' => if isLong then some (.escapedReturn content, []) else none
  | _ => none

/-- Reads a digit of an escape by number. -/
def codePointStep? (isLong : Bool) (content : List Char) (value missing : Nat) (c : Char) :
    Option (Scan × List Token) :=
  match Json.hexValue? c with
  | none => none
  | some digit =>
    let value := 16 * value + digit
    if missing > 1 then some (.codePoint isLong content value (missing - 1), [])
    else if isScalar value then some (inString isLong (Char.ofNat value :: content), [])
    else none

/-- Reads a character; the result has the tokens that end with it or before it. -/
def step? (scan : Scan) (c : Char) : Option (Scan × List Token) :=
  match scan with
  | .between => start? c
  | .word spelling =>
    if inWord c then some (.word (c :: spelling), [])
    else startBehind? (.word (textOf spelling)) c
  | .blank single =>
    if c = ' ' ∨ c = '\t' then some (.blank false, []) else startBehind? (.blank single) c
  | .comment =>
    if c = '\n' then some (.between, [.newline])
    else if c = '\r' then some (.lineReturn, [])
    else if isPlain c then some (.comment, [])
    else none
  | .lineReturn => if c = '\n' then some (.between, [.newline]) else none
  | .opened q => if c = q.char then some (.openedTwice q, []) else shortStep? q [] c
  | .openedTwice q =>
    if c = q.char then some (.longStart q, []) else startBehind? (.text "") c
  | .short q content => shortStep? q content c
  | .longStart q =>
    if c = '\n' then some (.long q [], [])
    else if c = '\r' then some (.longStartReturn q, [])
    else longStep? q [] c
  | .longStartReturn q => if c = '\n' then some (.long q [], []) else none
  | .long q content => longStep? q content c
  | .longReturn q content => if c = '\n' then some (.long q ('\n' :: content), []) else none
  | .longQuotes q content number =>
    if c = q.char then
      if number = 4 then some (.between, [longEnd q content 5])
      else some (.longQuotes q content (number + 1), [])
    else if number ≥ 3 then startBehind? (longEnd q content number) c
    else longStep? q (List.replicate number q.char ++ content) c
  | .escape isLong content => escapeStep? isLong content c
  | .codePoint isLong content value missing => codePointStep? isLong content value missing c
  | .escapedBlank content =>
    if c = ' ' ∨ c = '\t' then some (.escapedBlank content, [])
    else if c = '\n' then some (.skipping content, [])
    else if c = '\r' then some (.escapedReturn content, [])
    else none
  | .escapedReturn content => if c = '\n' then some (.skipping content, []) else none
  | .skipping content =>
    if c = ' ' ∨ c = '\t' ∨ c = '\n' then some (.skipping content, [])
    else if c = '\r' then some (.skippingReturn content, [])
    else longStep? .double content c
  | .skippingReturn content => if c = '\n' then some (.skipping content, []) else none

/-- The last tokens, at the end of the text. -/
def finish? : Scan → Option (List Token)
  | .between => some []
  | .word spelling => some [.word (textOf spelling)]
  | .blank single => some [.blank single]
  | .comment => some []
  | .openedTwice _ => some [.text ""]
  | .longQuotes q content number =>
    if number ≥ 3 then some [longEnd q content number] else none
  | _ => none

/-- The tokens of what is left of a text. -/
def run? : Scan → List Char → Option (List Token)
  | scan, [] => scan.finish?
  | scan, c :: rest =>
    match scan.step? c with
    | some (scan, tokens) => (run? scan rest).map (tokens ++ ·)
    | none => none

end Scan

/-- A text without the mark of its byte order. -/
def dropMark : List Char → List Char
  | '\uFEFF' :: rest => rest
  | cs => cs

/-- The tokens of a text. -/
def tokens? (text : String) : Option (List Token) :=
  Scan.between.run? (dropMark text.toList)

end AbiGate.Toml
