import DomainColoring.Binary64.Basic

/-!
# Operations on binary64 numbers

The remainder of a division, which is exact, the length of a plane vector, and choosing
between numbers.
-/

namespace DomainColoring.Binary64

/-- The remainder of `x` on division by `y`, with the sign of `x`. It is always exactly
representable: as counts of units it is the remainder of naturals. -/
def remainder (x y : Float) : Float :=
  if x.isNaN || y.isNaN || x.isInf || units y = 0 then nan
  else if y.isInf then x
  else withSign (isNegative x) (ofUnits (units x % units y) 1)

/-- The remainder moved up by one modulus if it is below zero. -/
def euclideanRemainder (x y : Float) : Float :=
  let r := remainder x y
  if r < 0.0 then r + y.abs else r

/-- The greater of two numbers, or the only one of them that is a number. -/
def maximum (x y : Float) : Float :=
  if x.isNaN then y else if x < y then y else x

/-- The lesser of two numbers, or the only one of them that is a number. -/
def minimum (x y : Float) : Float :=
  if x.isNaN then y else if y < x then y else x

/-- The rounded root of the sum of two squares, less the share of its own rounding error that
one step of Newton's method finds. The step needs the difference between the square of the
root and the sum; it is put together from a small rest, so that little of it cancels. -/
def correctedRoot (long short : Float) : Float :=
  let root := (long * long + short * short).sqrt
  let excess :=
    if root ≤ 2.0 * short then
      let rest := root - short
      long * (2.0 * rest - long) + (rest - 2.0 * (long - short)) * rest
    else
      let rest := root - long
      2.0 * rest * (long - 2.0 * short) + ((4.0 * rest - short) * short + rest * rest)
  root - excess / (2.0 * root)

/-- What is no more than this share of a number is lost when it is added to the number. -/
def lostShare : Float := powerOfTwo (-54)

/-- The greatest number whose square leaves room for another one. -/
def squareLimit : Float := powerOfTwo 511

/-- The least number whose square keeps all its digits. -/
def squareFloor : Float := powerOfTwo (-459)

/-- The factor by which numbers are moved into the range where squares are safe. -/
def rangeShift : Float := powerOfTwo (-600)

/-- The length of a vector with two legs, neither of them negative. -/
def lengthOf (long short : Float) : Float :=
  if long > squareLimit then
    if short ≤ long * lostShare then long + short
    else correctedRoot (long * rangeShift) (short * rangeShift) / rangeShift
  else if short < squareFloor then
    if long ≥ short / lostShare then long + short
    else correctedRoot (long / rangeShift) (short / rangeShift) * rangeShift
  else if short ≤ long * lostShare then long + short
  else correctedRoot long short

/-- The length of a plane vector, off by at most one place in the last digit. It is infinite
if a leg is, whatever the other one is, and never below zero. -/
def hypotenuse (x y : Float) : Float :=
  if x.isInf || y.isInf then infinity
  else if x.isNaN || y.isNaN then nan
  else maximum (lengthOf (maximum x.abs y.abs) (minimum x.abs y.abs)) 0.0

/-- The number in `[low, high]` nearest to `x`; a number that is none stays as it is. -/
def clamp (x low high : Float) : Float :=
  if x < low then low else if x > high then high else x

end DomainColoring.Binary64
