/-
# Numerals

Unsigned numbers in decimal: how one is read from a text (a plus sign may stand before the
digits, leading zeros are allowed, nothing else is).

Key definitions: `readNumeral?`, `readUInt64?`.
-/

namespace AbiGate.Text

/-- The value of an ASCII digit. -/
def digitValue? (c : Char) : Option Nat :=
  if '0' ≤ c ∧ c ≤ '9' then some (c.toNat - '0'.toNat) else none

/-- Reads digits behind the number read so far. -/
def readDigits? (value : Nat) : List Char → Option Nat
  | [] => some value
  | c :: rest =>
    match digitValue? c with
    | some d => readDigits? (10 * value + d) rest
    | none => none

/-- Reads one digit or more. -/
def readNatural? : List Char → Option Nat
  | [] => none
  | cs => readDigits? 0 cs

/-- Reads one digit or more, behind a plus sign or not. -/
def readNumeral? : List Char → Option Nat
  | '+' :: cs => readNatural? cs
  | cs => readNatural? cs

/-- Reads a numeral whose value has at most 64 binary digits. -/
def readUInt64? (cs : List Char) : Option UInt64 :=
  match readNumeral? cs with
  | some n => if n < UInt64.size then some (UInt64.ofNat n) else none
  | none => none

/-- A number is read only from a text that is not empty. -/
theorem readNatural?_nil : readNatural? [] = none := rfl

/-- The number that is read has the value that the numeral names. -/
theorem toNat_of_readUInt64? {cs : List Char} {v : UInt64} (h : readUInt64? cs = some v) :
    readNumeral? cs = some v.toNat := by
  unfold readUInt64? at h
  split at h
  · next n hn =>
    split at h
    · next hlt =>
      cases h
      simpa [hn] using (Nat.mod_eq_of_lt hlt).symm
    · cases h
  · cases h

end AbiGate.Text
