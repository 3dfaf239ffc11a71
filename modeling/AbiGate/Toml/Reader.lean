/-
# TOML texts, read

The reader goes through the tokens of a text once. It keeps the document so far, the table whose
section it is in, the values that are still open, innermost first, and what may come next. A token
that may not come next makes the text no TOML text.

Key definitions: `Toml.Open`, `Toml.Next`, `Toml.Reader`, `Toml.Reader.step?`, `Toml.read?`.
-/
import AbiGate.Toml.Bare
import AbiGate.Toml.Table
import AbiGate.Toml.Token

namespace AbiGate.Toml

/-- What is still open when a value is read. -/
inductive Open where
  /-- A line that has its key. -/
  | line (path : List String)
  /-- An array, with what it holds so far, last first. -/
  | array (items : List Toml)
  /-- A table in a line, with what it holds so far. -/
  | table (entries : Entries)
  /-- A table in a line whose next value has its key. -/
  | member (entries : Entries) (path : List String)
  deriving Repr

/-- What a key is for. -/
inductive KeyUse where
  | line
  | table
  | arrayTable
  | member
  deriving DecidableEq, Repr

/-- What the reader waits for. -/
inductive Next where
  /-- The start of a line. -/
  | line
  /-- The rest of a header, right behind its first bracket. -/
  | header
  /-- A key, with its parts so far, last first; `whole` if they are a key already. -/
  | key (use : KeyUse) (parts : List String) (whole : Bool)
  /-- The second of the brackets that close the header of an array. -/
  | secondBracket (path : List String)
  /-- A value. -/
  | value
  /-- A value of an array, or the array's end. -/
  | item
  /-- The end of a value or what follows a complete value. -/
  | behind (v : Toml)
  /-- The end of a line. -/
  | lineEnd
  deriving Repr

/-- The state of the reader. -/
structure Reader where
  root : Entries := []
  /-- The path of the table whose section it is. -/
  section_ : List String := []
  stack : List Open := []
  next : Next := .line
  deriving Repr

/-- The number of parts that a key may have, and one more than values may be nested. -/
def maxDepth : Nat := 80

/-- Whether a text can be a part of a key without quotes. -/
def isBareKey (s : String) : Bool :=
  !s.isEmpty && s.toList.all fun c => c.isAlphanum || c = '_' || c = '-'

/-- The texts between the dots of a word. -/
def cutAtDots : List Char → List (List Char)
  | [] => [[]]
  | '.' :: rest => [] :: cutAtDots rest
  | c :: rest =>
    match cutAtDots rest with
    | [] => [[c]]
    | piece :: more => (c :: piece) :: more

namespace Reader

/-- Adds a part to a key that lacks one. -/
def addPart? (part : String) : List String × Bool → Option (List String × Bool)
  | (parts, false) => if parts.length + 1 < maxDepth then some (part :: parts, true) else none
  | (_, true) => none

/-- Adds a text between dots to a key; next to a dot at the end of a word there is none. -/
def addPiece? (piece : List Char) (key : List String × Bool) : Option (List String × Bool) :=
  if piece.isEmpty then some key
  else if isBareKey (String.ofList piece) then addPart? (String.ofList piece) key
  else none

/-- Adds the texts behind each dot of a word to a key. -/
def addPieces? : List (List Char) → List String × Bool → Option (List String × Bool)
  | [], key => some key
  | piece :: rest, (parts, true) => do addPieces? rest (← addPiece? piece (parts, false))
  | _ :: _, (_, false) => none

/-- Adds a word to a key. -/
def addWord? (word : String) (key : List String × Bool) : Option (List String × Bool) :=
  match cutAtDots word.toList with
  | [] => some key
  | piece :: rest => do addPieces? rest (← addPiece? piece key)

/-- The table in a line that has these entries. -/
def tableOf (entries : Entries) : Toml :=
  .table (membersOf entries)

/-- Reads a token of a key. -/
def keyStep? (r : Reader) (use : KeyUse) (parts : List String) (whole : Bool) (token : Token) :
    Option Reader :=
  match token with
  | .blank _ => some r
  | .word w => do
    let (parts, whole) ← addWord? w (parts, whole)
    return { r with next := .key use parts whole }
  | .text s => do
    let (parts, whole) ← addPart? s (parts, whole)
    return { r with next := .key use parts whole }
  | .equals =>
    match whole, use, r.stack with
    | true, .line, [] => some { r with stack := [.line parts.reverse], next := .value }
    | true, .member, .table entries :: stack =>
      some { r with stack := .member entries parts.reverse :: stack, next := .value }
    | _, _, _ => none
  | .closeBracket =>
    match whole, use with
    | true, .table => do
      let root ← openTable? parts.reverse r.root
      return { r with root, section_ := parts.reverse, next := .lineEnd }
    | true, .arrayTable => some { r with next := .secondBracket parts.reverse }
    | _, _ => none
  | .closeBrace =>
    match parts, whole, use, r.stack with
    | [], false, .member, .table [] :: stack =>
      some { r with stack, next := .behind (tableOf []) }
    | _, _, _, _ => none
  | _ => none

/-- Reads a token that a value starts with. -/
def valueStep? (r : Reader) : Token → Option Reader
  | .word w => do return { r with next := .behind (← ofWord? w) }
  | .text s => some { r with next := .behind (.string s) }
  | .longText s => some { r with next := .behind (.string s) }
  | .openBracket =>
    if r.stack.length < maxDepth then some { r with stack := .array [] :: r.stack, next := .item }
    else none
  | .openBrace =>
    if r.stack.length < maxDepth then
      some { r with stack := .table [] :: r.stack, next := .key .member [] false }
    else none
  | _ => none

/-- Ends a line that has a key and a value. -/
def endPair? (r : Reader) (path : List String) (v : Toml) : Option Reader := do
  return { r with root := ← addTo? r.section_ path v r.root, stack := [], next := .line }

/-- Reads a token behind a complete value. -/
def behindStep? (r : Reader) (v : Toml) (token : Token) : Option Reader :=
  match token, r.stack with
  | .blank _, _ => some r
  | .newline, [.line path] => r.endPair? path v
  | .newline, .array _ :: _ => some r
  | .comma, .array items :: stack =>
    some { r with stack := .array (v :: items) :: stack, next := .item }
  | .closeBracket, .array items :: stack =>
    some { r with stack, next := .behind (.array (v :: items).reverse) }
  | .comma, .member entries path :: stack => do
    let entries ← addPair? path v entries
    return { r with stack := .table entries :: stack, next := .key .member [] false }
  | .closeBrace, .member entries path :: stack => do
    return { r with stack, next := .behind (tableOf (← addPair? path v entries)) }
  | _, _ => none

/-- Reads a token where a line may start. -/
def lineStep? (r : Reader) : Token → Option Reader
  | .blank _ => some r
  | .newline => some r
  | .openBracket => some { r with next := .header }
  | token => r.keyStep? .line [] false token

/-- Reads the token behind the bracket that a header starts with. -/
def headerStep? (r : Reader) : Token → Option Reader
  | .openBracket => some { r with next := .key .arrayTable [] false }
  | .blank _ => some { r with next := .key .table [] false }
  | token => r.keyStep? .table [] false token

/-- Reads the last token of the header of an array. -/
def secondBracketStep? (r : Reader) (path : List String) : Token → Option Reader
  | .closeBracket => do
    return { r with root := ← openArrayTable? path r.root, section_ := path, next := .lineEnd }
  | _ => none

/-- Reads a token where an array may have a value or end. -/
def itemStep? (r : Reader) : Token → List Open → Option Reader
  | .blank _, _ => some r
  | .newline, _ => some r
  | .closeBracket, .array items :: stack =>
    some { r with stack, next := .behind (.array items.reverse) }
  | token, _ => r.valueStep? token

/-- Reads a token where a line has to end. -/
def lineEndStep? (r : Reader) : Token → Option Reader
  | .blank _ => some r
  | .newline => some { r with next := .line }
  | _ => none

/-- Reads a token. -/
def step? (r : Reader) (token : Token) : Option Reader :=
  match r.next with
  | .line => r.lineStep? token
  | .header => r.headerStep? token
  | .key use parts whole => r.keyStep? use parts whole token
  | .secondBracket path => r.secondBracketStep? path token
  | .value => if token.isBlank then some r else r.valueStep? token
  | .item => r.itemStep? token r.stack
  | .behind v => r.behindStep? v token
  | .lineEnd => r.lineEndStep? token

/-- The entries of the document, at the end of the text. -/
def finish? (r : Reader) : Option Entries :=
  match r.next, r.stack with
  | .line, _ => some r.root
  | .lineEnd, _ => some r.root
  | .behind v, [.line path] => (r.endPair? path v).map (·.root)
  | _, _ => none

end Reader

/-- The tokens with each date and the time behind it, one space apart, as one word. -/
def joinMoments : List Token → List Token
  | .word date :: .blank true :: .word time :: rest =>
    if isDate date.toList && isOffsetTime time.toList then
      .word (date ++ " " ++ time) :: joinMoments rest
    else .word date :: .blank true :: joinMoments (.word time :: rest)
  | token :: rest => token :: joinMoments rest
  | [] => []

/-- The table that a TOML text describes. -/
def read? (text : String) : Option Toml := do
  let reader ← (joinMoments (← tokens? text)).foldlM Reader.step? {}
  return .table (membersOf (← reader.finish?))

end AbiGate.Toml
