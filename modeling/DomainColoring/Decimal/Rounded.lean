import DomainColoring.Decimal.Layout

/-!
# Decimals cut to two places

The text of a number rounded to hundredths of its exact value, a half going to the even digit.
-/

namespace DomainColoring.Decimal

/-- `text` filled up with zeros on the left to `width` characters. -/
def zeroFilled (width : Nat) (text : List Char) : List Char :=
  List.replicate (width - text.length) '0' ++ text

/-- The text around the magnitude of a number: its sign and the words for what is not finite. -/
def signed (magnitude : Nat → List Char) (x : Float) : List Char :=
  let sign := if Binary64.isNegative x then ['-'] else []
  if x.isNaN then Layout.plain.notNumber
  else if x.isInf then sign ++ Layout.plain.infinite
  else sign ++ magnitude (Binary64.units x)

/-- A number with two places. A negative number that rounds to zero keeps its sign. -/
def hundredths : Float → List Char :=
  signed fun n =>
    let ds := zeroFilled 3 (digits (Rounding.halfEven (n * 100) Binary64.one))
    ds.take (ds.length - 2) ++ '.' :: ds.drop (ds.length - 2)

end DomainColoring.Decimal
