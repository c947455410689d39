import DomainColoring.Binary64.Basic

/-!
# Decimals and their digits

A decimal is a natural times a power of ten. `Decimal.toFloat` rounds it once, to the
nearest binary64 number; the digits of a natural are the usual ones, most significant first.
-/

namespace DomainColoring

/-- The number `coefficient * 10 ^ exponent`. -/
structure Decimal where
  coefficient : Nat
  exponent : Int
deriving DecidableEq, Repr

namespace Decimal

/-- The natural that a list of decimal digits denotes, most significant digit first. -/
def ofDigits (digits : List Char) : Nat :=
  digits.foldl (fun value digit => 10 * value + (digit.toNat - '0'.toNat)) 0

/-- The decimal digits of a natural, most significant first, with no leading zero but in `0`. -/
def digits (n : Nat) : List Char :=
  Nat.toDigits 10 n

/-- The binary64 number nearest to a decimal.

The two bounds keep the powers of ten small. A nonzero coefficient times `10 ^ 401` is past
every finite number, and `coefficient * 10 ^ exponent` is below `2 ^ (log2 + 1 + 3 * exponent)`
for a negative exponent, so below half a unit when that power is less than `-1075`. -/
def toFloat (d : Decimal) : Float :=
  if d.coefficient = 0 then 0.0
  else if 0 ≤ d.exponent then
    if 400 < d.exponent then Binary64.infinity
    else Binary64.nearest (d.coefficient * Nat.pow 10 d.exponent.toNat) 1
  else if (d.coefficient.log2 : Int) + 1 + 3 * d.exponent < -1075 then 0.0
  else Binary64.nearest d.coefficient (Nat.pow 10 (-d.exponent).toNat)

/-- The same number with no zero at the end of its coefficient. -/
def trimmed (d : Decimal) : Decimal :=
  if h : d.coefficient ≠ 0 ∧ d.coefficient % 10 = 0 then
    trimmed ⟨d.coefficient / 10, d.exponent + 1⟩
  else d
termination_by d.coefficient
decreasing_by omega

end Decimal
end DomainColoring
