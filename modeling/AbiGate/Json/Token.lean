/-
# JSON tokens

A JSON text is a row of tokens with blanks between them: six marks, strings, and the atoms
(null, truth values, numbers). `Json.tokens?` cuts a text into its tokens and gives nothing for
a text that has none there.

Key definitions: `Json.Token`, `Json.cutString?`, `Json.tokens?`.
-/
import AbiGate.Json.Basic
import AbiGate.Text.Double

namespace AbiGate.Json

/-- A token of a JSON text. -/
inductive Token where
  | openArray
  | closeArray
  | openObject
  | closeObject
  | comma
  | colon
  | text (value : String)
  /-- Null, a truth value or a number. -/
  | atom (value : Json)
  deriving Repr, BEq

/-! ### Strings -/

/-- The value of a hexadecimal digit. -/
def hexValue? (c : Char) : Option Nat :=
  if '0' ≤ c ∧ c ≤ '9' then some (c.toNat - '0'.toNat)
  else if 'a' ≤ c ∧ c ≤ 'f' then some (c.toNat - 'a'.toNat + 10)
  else if 'A' ≤ c ∧ c ≤ 'F' then some (c.toNat - 'A'.toNat + 10)
  else none

/-- The value of four hexadecimal digits. -/
def hexUnit? (a b c d : Char) : Option Nat := do
  return (((← hexValue? a) * 16 + (← hexValue? b)) * 16 + (← hexValue? c)) * 16 + (← hexValue? d)

/-- The character that a letter behind a backslash stands for. -/
def shortEscape? : Char → Option Char
  | '"' => some '"'
  | '\\' => some '\\'
  | '/' => some '/'
  | 'b' => some '\x08'
  | 'f' => some '\x0c'
  | 'n' => some '\n'
  | 'r' => some '\r'
  | 't' => some '\t'
  | _ => none

/-- A part of a string: a character, or the 16 bits that an escape names by number. -/
inductive Piece where
  | char (c : Char)
  | unit (n : Nat)

/-- The pieces of a string behind its first quote, and the text behind its last one. -/
def cutPieces? : List Char → Option (List Piece × List Char)
  | '"' :: rest => some ([], rest)
  | '\\' :: 'u' :: a :: b :: c :: d :: rest =>
    match hexUnit? a b c d, cutPieces? rest with
    | some n, some (pieces, behind) => some (.unit n :: pieces, behind)
    | _, _ => none
  | '\\' :: e :: rest =>
    match shortEscape? e, cutPieces? rest with
    | some c, some (pieces, behind) => some (.char c :: pieces, behind)
    | _, _ => none
  | c :: rest =>
    if c.toNat < 0x20 then none
    else
      match cutPieces? rest with
      | some (pieces, behind) => some (.char c :: pieces, behind)
      | none => none
  | [] => none

/-- The characters of a row of pieces. Two units that are the halves of a surrogate pair are one
character; a half that stands alone is none. -/
def joinPieces? : List Piece → Option (List Char)
  | [] => some []
  | .char c :: rest => (joinPieces? rest).map (c :: ·)
  | .unit n :: rest =>
    if 0xD800 ≤ n ∧ n < 0xDC00 then
      match rest with
      | .unit m :: rest =>
        if 0xDC00 ≤ m ∧ m < 0xE000 then
          (joinPieces? rest).map (Char.ofNat (0x10000 + (n - 0xD800) * 0x400 + (m - 0xDC00)) :: ·)
        else none
      | _ => none
    else if 0xDC00 ≤ n ∧ n < 0xE000 then none
    else (joinPieces? rest).map (Char.ofNat n :: ·)

/-- The string behind a quote, and the text behind its last quote. -/
def cutString? (cs : List Char) : Option (String × List Char) :=
  match cutPieces? cs with
  | some (pieces, behind) => (joinPieces? pieces).map fun chars => (String.ofList chars, behind)
  | none => none

/-! ### Numbers -/

def isDigit (c : Char) : Bool :=
  '0' ≤ c && c ≤ '9'

/-- Whether a text is one digit or more. -/
def isDigits (cs : List Char) : Bool :=
  !cs.isEmpty && cs.all isDigit

/-- Whether a text is the whole part of a number: digits without a needless zero in front. -/
def isWhole (cs : List Char) : Bool :=
  isDigits cs && (cs.head? != some '0' || cs.length == 1)

/-- The value of a row of digits. -/
def digitsValue (cs : List Char) : Nat :=
  cs.foldl (fun n c => 10 * n + (c.toNat - '0'.toNat)) 0

/-- Takes digits into a number as long as it fits into 64 bits, and counts the others. -/
def takeDigits (value : Nat) : List Char → Nat × Nat
  | [] => (value, 0)
  | c :: rest =>
    let next := 10 * value + (c.toNat - '0'.toNat)
    if next < UInt64.size then takeDigits next rest else (value, rest.length + 1)

/-- Whether a text is an exponent behind its letter. -/
def isExponent : List Char → Bool
  | '+' :: cs => isDigits cs
  | '-' :: cs => isDigits cs
  | cs => isDigits cs

/-- The value of an exponent behind its letter. -/
def exponentValue : List Char → Int
  | '+' :: cs => digitsValue cs
  | '-' :: cs => -(digitsValue cs : Int)
  | cs => digitsValue cs

/-- Reads a number without its sign: a whole part, then a fraction or not, then an exponent or
not. The result is the value of a number of 64 bits that is only a whole part, and nothing for
another. A number that is too great for double precision is refused. -/
def readMagnitude? (cs : List Char) : Option (Option Nat) :=
  let mantissa := cs.takeWhile fun c => c != 'e' && c != 'E'
  let whole := mantissa.takeWhile (· != '.')
  let fraction := mantissa.drop (whole.length + 1)
  let exponent := cs.drop (mantissa.length + 1)
  let plain := mantissa.length == cs.length && whole.length == mantissa.length
  let fractionOk := whole.length == mantissa.length || isDigits fraction
  let exponentOk := mantissa.length == cs.length || isExponent exponent
  if isWhole whole && fractionOk && exponentOk then
    if plain && digitsValue whole < UInt64.size then some (some (digitsValue whole))
    else
      let (value, skipped) := takeDigits 0 whole
      let (value, ignored) := takeDigits value fraction
      let scale := (skipped + ignored : Int) - fraction.length + exponentValue exponent
      if Text.productOverflows value scale then none else some none
  else none

/-- Reads a number. -/
def readNumber? (cs : List Char) : Option Json :=
  match cs with
  | '-' :: magnitude =>
    match readMagnitude? magnitude with
    | some (some (n + 1)) =>
      some (if n < Nat.pow 2 63 then .integer (.negSucc n) else .decimal (String.ofList cs))
    | some _ => some (.decimal (String.ofList cs))
    | none => none
  | _ =>
    match readMagnitude? cs with
    | some (some n) => some (.integer n)
    | some none => some (.decimal (String.ofList cs))
    | none => none

/-- Reads a word that is null, a truth value or a number. -/
def readAtom? (cs : List Char) : Option Json :=
  if cs = "null".toList then some .null
  else if cs = "true".toList then some (.bool true)
  else if cs = "false".toList then some (.bool false)
  else readNumber? cs

/-! ### Texts -/

/-- The blanks that may stand between tokens. -/
def isGap (c : Char) : Bool :=
  c = ' ' || c = '\t' || c = '\n' || c = '\r'

/-- The token that a single character is. -/
def markOf? : Char → Option Token
  | '[' => some .openArray
  | ']' => some .closeArray
  | '\x7b' => some .openObject
  | '\x7d' => some .closeObject
  | ',' => some .comma
  | ':' => some .colon
  | _ => none

/-- Whether a character can belong to an atom. -/
def inAtom (c : Char) : Bool :=
  !isGap c && (markOf? c).isNone && c != '"'

theorem length_cutPieces? {cs behind : List Char} {pieces : List Piece}
    (h : cutPieces? cs = some (pieces, behind)) : behind.length < cs.length := by
  fun_induction cutPieces? cs generalizing pieces with
  | case1 rest =>
    cases h
    simp
  | case2 _ _ _ _ rest _ _ _ hrest _ ih =>
    cases h
    have := ih hrest
    simp only [List.length_cons]
    omega
  | case4 _ rest _ _ _ _ hrest _ ih =>
    cases h
    have := ih hrest
    simp only [List.length_cons]
    omega
  | case7 _ rest _ _ _ _ _ _ hrest ih =>
    cases h
    have := ih hrest
    simp only [List.length_cons]
    omega
  | case3 | case5 | case6 | case8 | case9 => simp at h

theorem length_cutString? {cs behind : List Char} {s : String}
    (h : cutString? cs = some (s, behind)) : behind.length < cs.length := by
  unfold cutString? at h
  split at h
  · next hp =>
    obtain ⟨_, _, he⟩ := Option.map_eq_some_iff.1 h
    cases he
    exact length_cutPieces? hp
  · cases h

/-- The tokens of a text. -/
def tokens? : List Char → Option (List Token)
  | [] => some []
  | c :: rest =>
    if isGap c then tokens? rest
    else if c = '"' then
      match h : cutString? rest with
      | some (s, behind) =>
        have := length_cutString? h
        (tokens? behind).map (.text s :: ·)
      | none => none
    else
      match markOf? c with
      | some mark => (tokens? rest).map (mark :: ·)
      | none =>
        match readAtom? (c :: rest.takeWhile inAtom) with
        | some value =>
          have : (rest.dropWhile inAtom).length ≤ rest.length :=
            (List.dropWhile_sublist _).length_le
          (tokens? (rest.dropWhile inAtom)).map (.atom value :: ·)
        | none => none
termination_by cs => cs.length
decreasing_by all_goals simp_wf <;> omega

end AbiGate.Json
