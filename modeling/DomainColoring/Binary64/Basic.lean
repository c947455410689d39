import DomainColoring.Rounding

/-!
# Binary64 numbers as whole numbers of a smallest unit

Every finite binary64 number is a whole number of units of size `2 ^ -1074`, the least
positive one. `units` reads the magnitude of a number as that natural, and `nearest` goes
the other way: it rounds a quotient of naturals to the nearest binary64 number. Nothing
here depends on floating-point arithmetic, so its laws are laws of naturals.
-/

namespace DomainColoring.Binary64

/-- The number of units in one: a unit is the least positive number. -/
def one : Nat := Nat.pow 2 1074

/-- Whether the sign bit is set; `-0.0` has it set too. -/
def isNegative (x : Float) : Bool :=
  x.toBits >>> 63 == 1

/-- The biased exponent field. -/
def exponentField (x : Float) : Nat :=
  ((x.toBits >>> 52) &&& 0x7ff).toNat

/-- The fraction field, without the leading one of a normal number. -/
def fractionField (x : Float) : Nat :=
  (x.toBits &&& 0xfffffffffffff).toNat

/-- The magnitude of a finite number, counted in units. -/
def units (x : Float) : Nat :=
  match exponentField x with
  | 0 => fractionField x
  | e + 1 => (Nat.pow 2 52 + fractionField x) <<< e

/-- The bit pattern of positive infinity; patterns below it are the finite magnitudes, in
increasing order. -/
def infinityPattern : Nat := 0x7ff <<< 52

/-- The pattern of the magnitude nearest to `num / den` units. A magnitude keeps the 53
leading bits of its unit count; the place of the last kept bit and the kept bits form the
pattern as one sum, so a carry out of the kept bits moves to the next exponent by itself. -/
def nearestPattern (num den : Nat) : Nat :=
  let dropped := (num / den).log2 - 52
  min infinityPattern ((dropped <<< 52) + Rounding.halfEven num (den <<< dropped))

/-- The binary64 number nearest to `num / den` units (with `den` positive), ties going to the
even significand and too large a quotient to infinity. -/
def ofUnits (num den : Nat) : Float :=
  Float.ofBits (UInt64.ofNat (nearestPattern num den))

/-- The binary64 number nearest to `num / den`. -/
def nearest (num den : Nat) : Float :=
  ofUnits (num * one) den

/-- A power of two with an exponent between -1022 and 1023. -/
def powerOfTwo (exponent : Int) : Float :=
  Float.ofBits (UInt64.ofNat ((exponent + 1023).toNat <<< 52))

/-- The number with the magnitude of `x`, a number without sign, and the given sign. -/
def withSign (negative : Bool) (x : Float) : Float :=
  if negative then -x else x

/-- Positive infinity. -/
def infinity : Float := Float.ofBits (UInt64.ofNat infinityPattern)

/-- The number that is no number. -/
def nan : Float := 0.0 / 0.0

end DomainColoring.Binary64
