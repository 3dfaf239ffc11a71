/-
# Values without quotes

A word in the place of a value is a truth value, a number, or a point in time. Underscores may
stand between digits. An integer must fit into 64 bits with a sign, and a number with a fraction
or an exponent must not be greater than the greatest double precision number.

Key definitions: `Toml.ofWord?`, `Toml.isInteger`, `Toml.isFloat`, `Toml.isMoment`.
-/
import AbiGate.Json.Token
import AbiGate.Text.Double
import AbiGate.Toml.Basic

namespace AbiGate.Toml

/-- What is before the first character with a property, and what is behind it if there is one. -/
def cutAt (p : Char → Bool) (cs : List Char) : List Char × Option (List Char) :=
  match cs.dropWhile fun c => !p c with
  | [] => (cs, none)
  | _ :: behind => (cs.takeWhile fun c => !p c, some behind)

/-! ### Numbers -/

/-- Whether a text is one digit or more, with single underscores between digits. -/
def isRun (isDigit : Char → Bool) : List Char → Bool
  | [] => false
  | [c] => isDigit c
  | c :: '_' :: rest => isDigit c && isRun isDigit rest
  | c :: rest => isDigit c && isRun isDigit rest

/-- The value of a run of digits in a base. -/
def runValue (base : Nat) (cs : List Char) : Nat :=
  cs.foldl (fun n c => (Json.hexValue? c).elim n (base * n + ·)) 0

/-- Whether a text is a run of decimal digits without a needless zero in front. -/
def isWholeRun (cs : List Char) : Bool :=
  isRun Json.isDigit cs && (cs.head? != some '0' || cs.length == 1)

/-- The text behind a sign, and whether the sign is a minus. -/
def cutSign : List Char → Bool × List Char
  | '-' :: cs => (true, cs)
  | '+' :: cs => (false, cs)
  | cs => (false, cs)

/-- Whether a text is an integer in a base other than ten, of at most 63 binary digits. -/
def isBasedInteger (base : Nat) (cs : List Char) : Bool :=
  isRun (fun c => (Json.hexValue? c).any (· < base)) cs && runValue base cs < Nat.pow 2 63

/-- Whether a text is an integer. -/
def isInteger (cs : List Char) : Bool :=
  match cs with
  | '0' :: 'x' :: digits => isBasedInteger 16 digits
  | '0' :: 'o' :: digits => isBasedInteger 8 digits
  | '0' :: 'b' :: digits => isBasedInteger 2 digits
  | _ =>
    let (negative, digits) := cutSign cs
    isWholeRun digits && runValue 10 digits < Nat.pow 2 63 + (if negative then 1 else 0)

/-- Whether a text without a sign is a number with a fraction or an exponent, not too great. -/
def isMagnitude (bounded : Bool) (cs : List Char) : Bool :=
  let (mantissa, exponent) := cutAt (fun c => c = 'e' || c = 'E') cs
  let (whole, fraction) := cutAt (· = '.') mantissa
  let (negative, power) := cutSign (exponent.getD ['0'])
  let fractionDigits := (fraction.getD []).filter (· ≠ '_')
  let value := runValue 10 (whole ++ fractionDigits)
  let scale : Int := (if negative then -(runValue 10 power : Int) else runValue 10 power)
    - fractionDigits.length
  (fraction.isSome || exponent.isSome) && isWholeRun whole &&
    fraction.all (isRun Json.isDigit) && isRun Json.isDigit power &&
    !(bounded && Text.overflows value scale)

/-- Whether a text is a number with a fraction or an exponent, infinity, or no number. -/
def isFloat (cs : List Char) : Bool :=
  let (negative, magnitude) := cutSign cs
  magnitude = "inf".toList || magnitude = "nan".toList || isMagnitude (!negative) magnitude

/-! ### Points in time -/

/-- The value of two decimal digits. -/
def twoDigits? (a b : Char) : Option Nat :=
  if Json.isDigit a && Json.isDigit b then some (Json.digitsValue [a, b]) else none

/-- The number of days of a month. -/
def daysOf (year month : Nat) : Nat :=
  if month = 2 then
    if year % 4 = 0 ∧ (year % 100 ≠ 0 ∨ year % 400 = 0) then 29 else 28
  else if month = 4 ∨ month = 6 ∨ month = 9 ∨ month = 11 then 30
  else 31

/-- Whether a text is a date. -/
def isDate : List Char → Bool
  | [y₁, y₂, y₃, y₄, '-', m₁, m₂, '-', d₁, d₂] =>
    match twoDigits? y₁ y₂, twoDigits? y₃ y₄, twoDigits? m₁ m₂, twoDigits? d₁ d₂ with
    | some century, some year, some month, some day =>
      1 ≤ month && month ≤ 12 && 1 ≤ day && day ≤ daysOf (100 * century + year) month
    | _, _, _, _ => false
  | _ => false

/-- Whether a text starts with hours and minutes. -/
def isClock (h₁ h₂ m₁ m₂ : Char) : Bool :=
  (twoDigits? h₁ h₂).any (· < 24) && (twoDigits? m₁ m₂).any (· < 60)

/-- What is behind the seconds that a text starts with, and behind their fraction. -/
def dropTime? : List Char → Option (List Char)
  | h₁ :: h₂ :: ':' :: m₁ :: m₂ :: ':' :: s₁ :: s₂ :: rest =>
    if isClock h₁ h₂ m₁ m₂ && (twoDigits? s₁ s₂).any (· ≤ 60) then
      match rest with
      | '.' :: fraction =>
        if (fraction.head?).any Json.isDigit then some (fraction.dropWhile Json.isDigit) else none
      | _ => some rest
    else none
  | _ => none

/-- Whether a text is the distance of a local time from universal time. -/
def isOffset : List Char → Bool
  | ['Z'] => true
  | ['z'] => true
  | [sign, h₁, h₂, ':', m₁, m₂] => (sign = '+' || sign = '-') && isClock h₁ h₂ m₁ m₂
  | _ => false

/-- Whether a text is a time of day. -/
def isTime (cs : List Char) : Bool :=
  dropTime? cs = some []

/-- Whether a text is a time of day, with an offset or not. -/
def isOffsetTime (cs : List Char) : Bool :=
  match dropTime? cs with
  | some [] => true
  | some offset => isOffset offset
  | none => false

/-- Whether a text is a date and a time with a letter or a blank between them. -/
def isDateTime (cs : List Char) : Bool :=
  match cs.drop 10 with
  | mark :: time =>
    isDate (cs.take 10) && (mark = 'T' || mark = 't' || mark = ' ') && isOffsetTime time
  | [] => false

/-- Whether a text is a date, a time, or both. -/
def isMoment (cs : List Char) : Bool :=
  isDate cs || isTime cs || isDateTime cs

/-- The value that a word is. -/
def ofWord? (word : String) : Option Toml :=
  let cs := word.toList
  if word = "true" ∨ word = "false" ∨ isInteger cs ∨ isFloat cs then some (.bare word)
  else if isMoment cs then some (.moment word)
  else none

end AbiGate.Toml
