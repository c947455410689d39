import DomainColoring.Binary64.Arithmetic

/-!
# Complex numbers with binary64 parts

Arithmetic and elementary functions, each by one fixed formula: what a formula gives at
zeros, infinities and in rounding is part of its meaning, so no formula is rearranged.
-/

namespace DomainColoring

/-- A point of the complex plane. -/
structure ComplexNumber where
  re : Float
  im : Float

namespace ComplexNumber

/-- Whether both parts are finite. -/
def isFinite (z : ComplexNumber) : Bool :=
  z.re.isFinite && z.im.isFinite

/-- Whether both parts are zeros of either sign. -/
def isZero (z : ComplexNumber) : Bool :=
  z.re == 0.0 && z.im == 0.0

def zero : ComplexNumber := ⟨0.0, 0.0⟩

def one : ComplexNumber := ⟨1.0, 0.0⟩

def neg (z : ComplexNumber) : ComplexNumber :=
  ⟨-z.re, -z.im⟩

def add (a b : ComplexNumber) : ComplexNumber :=
  ⟨a.re + b.re, a.im + b.im⟩

def sub (a b : ComplexNumber) : ComplexNumber :=
  ⟨a.re - b.re, a.im - b.im⟩

def mul (a b : ComplexNumber) : ComplexNumber :=
  ⟨a.re * b.re - a.im * b.im, a.re * b.im + a.im * b.re⟩

/-- The quotient through the squared length of the divisor; a zero divisor gives no number. -/
def div (a b : ComplexNumber) : ComplexNumber :=
  let square := b.re * b.re + b.im * b.im
  ⟨(a.re * b.re + a.im * b.im) / square, (a.im * b.re - a.re * b.im) / square⟩

/-- The distance from zero. -/
def norm (z : ComplexNumber) : Float :=
  Binary64.hypotenuse z.re z.im

/-- The angle from the positive real axis, in `[-π, π]`. -/
def arg (z : ComplexNumber) : Float :=
  Float.atan2 z.im z.re

/-- The point at a distance and an angle. -/
def polar (distance angle : Float) : ComplexNumber :=
  ⟨distance * angle.cos, distance * angle.sin⟩

/-- The exponential. At an infinite real part the angle is looked at only where it has a
meaning: the value is zero below, and keeps a zero imaginary part above. -/
def exp (z : ComplexNumber) : ComplexNumber :=
  if z.re.isInf then
    if z.re < 0.0 then
      if z.im.isFinite then polar z.re.exp z.im else zero
    else if z.im == 0.0 || !z.im.isFinite then
      ⟨z.re, if z.im.isInf then Binary64.nan else z.im⟩
    else polar z.re.exp z.im
  else if z.re.isNaN && z.im == 0.0 then z
  else polar z.re.exp z.im

/-- The principal logarithm. -/
def ln (z : ComplexNumber) : ComplexNumber :=
  ⟨z.norm.log, z.arg⟩

def sin (z : ComplexNumber) : ComplexNumber :=
  ⟨z.re.sin * z.im.cosh, z.re.cos * z.im.sinh⟩

def cos (z : ComplexNumber) : ComplexNumber :=
  ⟨z.re.cos * z.im.cosh, -z.re.sin * z.im.sinh⟩

/-- The tangent, from the double angle. -/
def tan (z : ComplexNumber) : ComplexNumber :=
  let twiceRe := z.re + z.re
  let twiceIm := z.im + z.im
  let divisor := twiceRe.cos + twiceIm.cosh
  ⟨twiceRe.sin / divisor, twiceIm.sinh / divisor⟩

/-- The principal power with a real exponent, in polar form. -/
def powReal (z : ComplexNumber) (exponent : Float) : ComplexNumber :=
  if exponent == 0.0 then one
  else polar (z.norm.pow exponent) (z.arg * exponent)

/-- The principal power with a complex exponent. -/
def powComplex (z exponent : ComplexNumber) : ComplexNumber :=
  exp (mul exponent z.ln)

/-- The principal power. A zero exponent gives one, any other power of zero is zero, and a
real exponent goes through the polar form. -/
def pow (base exponent : ComplexNumber) : ComplexNumber :=
  if exponent.isZero then one
  else if base.isZero then zero
  else if exponent.im == 0.0 then base.powReal exponent.re
  else base.powComplex exponent

/-- The principal square root. On the two axes it is taken without angles, and the sign of a
zero imaginary part says from which side the negative axis is reached. -/
def sqrt (z : ComplexNumber) : ComplexNumber :=
  if z.im == 0.0 then
    if Binary64.isNegative z.re then
      let height := (-z.re).sqrt
      ⟨0.0, if Binary64.isNegative z.im then -height else height⟩
    else ⟨z.re.sqrt, z.im⟩
  else if z.re == 0.0 then
    let side := (z.im.abs / 2.0).sqrt
    ⟨side, if Binary64.isNegative z.im then -side else side⟩
  else polar z.norm.sqrt (z.arg / 2.0)

end ComplexNumber
end DomainColoring
