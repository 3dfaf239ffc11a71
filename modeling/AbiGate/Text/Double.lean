/-
# Double precision

A decimal number may be too great for double precision, whose numbers have 53 binary digits and
are less than `2 ^ 1024`. There are two ways to tell: one rounds the number once; the other rounds
its digits, the power of ten that they are scaled by, and the product of both, so that it can find
a number too great that is not.

Key definitions: `nearestDouble`, `overflows`, `productOverflows`.
-/

namespace AbiGate.Text

/-- The number of 53 binary digits, followed by zeros, that is nearest; of two it is the even
one. -/
def nearestDouble (n : Nat) : Nat :=
  let unit := Nat.pow 2 (n.log2 + 1 - 53)
  let below := n / unit
  let rest := n % unit
  if 2 * rest > unit ∨ (2 * rest = unit ∧ below % 2 = 1) then (below + 1) * unit else below * unit

/-- The least number that is rounded to infinity in double precision. -/
def overflowLimit : Nat := Nat.pow 2 1024 - Nat.pow 2 970

/-- Whether the number `mantissa * 10 ^ exponent` is rounded to infinity. -/
def overflows (mantissa : Nat) (exponent : Int) : Bool :=
  let magnitude := ((Nat.toDigits 10 mantissa).length : Int) + exponent
  if mantissa = 0 ∨ magnitude < 309 then false
  else if magnitude > 309 then true
  else mantissa * Nat.pow 10 exponent.toNat ≥ overflowLimit * Nat.pow 10 (-exponent).toNat

/-- Whether the product of the rounded digits and the rounded power of ten is infinite. -/
def productOverflows (digits : Nat) (exponent : Int) : Bool :=
  digits ≠ 0 && 0 ≤ exponent &&
    (308 < exponent ||
      Nat.pow 2 1024 ≤
        nearestDouble (nearestDouble digits * nearestDouble (Nat.pow 10 exponent.toNat)))

/-- A number of at most 53 binary digits is its own nearest one. -/
theorem nearestDouble_of_lt {n : Nat} (h : n < Nat.pow 2 53) : nearestDouble n = n := by
  have : n.log2 + 1 - 53 = 0 := by
    by_cases hn : n = 0
    · subst hn
      simp
    · have := (Nat.log2_lt hn).2 h
      omega
  simp [nearestDouble, this, Nat.mod_one]

end AbiGate.Text
