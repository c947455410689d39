import DomainColoring.Decimal.Basic
import DomainColoring.Json.Basic

/-!
# Numbers in JSON texts

A whole number that fits 64 bits is kept as it is. Any other number becomes a binary64
number in two roundings: as many leading digits as fit 64 bits form a significand, which is
rounded, and then multiplied or divided by a power of ten.
-/

namespace DomainColoring.Json

/-- A number as it is written: digits before and after the point, and the exponent. -/
structure Numeral where
  negative : Bool
  whole : List Char
  fraction : List Char
  exponent : Option Int

namespace Numeral

/-- A significand with digits appended as long as it fits 64 bits, and the digits left. -/
def appendDigits (significand : Nat) : List Char → Nat × List Char
  | [] => (significand, [])
  | digit :: rest =>
    let next := Decimal.ofDigits [digit] + 10 * significand
    if next < Nat.pow 2 64 then appendDigits next rest else (significand, digit :: rest)

/-- `x` divided by a power of ten, in steps of at most `10 ^ 308`. -/
def scaleDown (x : Float) (places : Nat) : Float :=
  if places ≤ 308 then x / Decimal.toFloat ⟨1, places⟩
  else if x == 0.0 then x
  else scaleDown (x / Decimal.toFloat ⟨1, 308⟩) (places - 308)
termination_by places

/-- A significand times a power of ten, if that is finite. -/
def scaled? (significand : Nat) (exponent : Int) : Option Float :=
  let x := (UInt64.ofNat significand).toFloat
  if exponent < 0 then some (scaleDown x (-exponent).toNat)
  else if exponent ≤ 308 then (some (x * Decimal.toFloat ⟨1, exponent⟩)).filter Float.isFinite
  else if x == 0.0 then some x
  else none

/-- The value of a number; one past the greatest finite number has none. -/
def value (n : Numeral) : Json :=
  let (wholePart, wholeLeft) := appendDigits 0 n.whole
  let (significand, fractionLeft) := appendDigits wholePart n.fraction
  let isInteger := n.fraction.isEmpty && n.exponent.isNone && wholeLeft.isEmpty
  if isInteger && !n.negative then .natural (UInt64.ofNat significand)
  else if isInteger && 0 < significand && significand ≤ Nat.pow 2 63 then
    .negative (UInt64.ofNat significand)
  else
    let placesTaken := n.fraction.length - fractionLeft.length
    let exponent := (wholeLeft.length : Int) - placesTaken + n.exponent.getD 0
    match scaled? significand exponent with
    | some x => .real (Binary64.withSign n.negative x)
    | none => .broken true

/-- The digits in front of a text, if there is one, and the text behind them. -/
def digits? (text : List Char) : Option (List Char × List Char) :=
  match text.takeWhile Char.isDigit with
  | [] => none
  | ds => some (ds, text.dropWhile Char.isDigit)

/-- The digits before the point: `0`, or a number that does not begin with it. -/
def readWhole? (text : List Char) : Option (List Char × List Char) :=
  match digits? text with
  | some ('0' :: _ :: _, _) => none
  | other => other

/-- A point and the digits that have to follow it, if there is a point. -/
def readFraction? : List Char → Option (List Char × List Char)
  | '.' :: rest => digits? rest
  | text => some ([], text)

/-- An exponent: a sign, if there is one, and the digits that have to follow. -/
def readInteger? (text : List Char) : Option (Int × List Char) :=
  let (negative, unsigned) := match text with
    | '-' :: rest => (true, rest)
    | '+' :: rest => (false, rest)
    | rest => (false, rest)
  (digits? unsigned).map fun (ds, rest) =>
    let magnitude : Int := Decimal.ofDigits ds
    (if negative then -magnitude else magnitude, rest)

/-- An exponent mark and the exponent that has to follow, if there is a mark. -/
def readExponent? : List Char → Option (Option Int × List Char)
  | [] => some (none, [])
  | mark :: rest =>
    if mark = 'e' ∨ mark = 'E' then
      (readInteger? rest).map fun (exponent, rest) => (some exponent, rest)
    else some (none, mark :: rest)

/-- The number in front of a text. -/
def read? (text : List Char) : Option (Numeral × List Char) := do
  let (negative, unsigned) := match text with
    | '-' :: rest => (true, rest)
    | rest => (false, rest)
  let (whole, afterWhole) ← readWhole? unsigned
  let (fraction, afterFraction) ← readFraction? afterWhole
  let (exponent, rest) ← readExponent? afterFraction
  return (⟨negative, whole, fraction, exponent⟩, rest)

end Numeral
end DomainColoring.Json
