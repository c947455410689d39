import DomainColoring.Decimal.Basic

/-!
# Reading a number from text

A number is written as an optional sign and either decimal digits, with an optional point
somewhere among or around them and an optional exponent, or one of the words `inf`,
`infinity` and `nan` in any case. The whole text has to be such a number: no blanks, no
digit separators.
-/

namespace DomainColoring.Decimal

/-- A sign in front of a text, and the text behind it. -/
def splitSign : List Char → Bool × List Char
  | '-' :: rest => (true, rest)
  | '+' :: rest => (false, rest)
  | text => (false, text)

/-- An integer with an optional sign and at least one digit. -/
def readInteger? (text : List Char) : Option Int :=
  let (negative, ds) := splitSign text
  if ds ≠ [] ∧ ds.all Char.isDigit then
    some (if negative then -(ofDigits ds : Int) else ofDigits ds)
  else none

/-- What an exponent mark and an integer add to the exponent; nothing at the end of the text. -/
def readExponent? : List Char → Option Int
  | [] => some 0
  | mark :: rest => if mark = 'e' ∨ mark = 'E' then readInteger? rest else none

/-- Digits, a point, digits, and an exponent; at least one digit stands before or after the
point, and with no digit after it the point may be missing. -/
def readUnsigned? (text : List Char) : Option Decimal :=
  let whole := text.takeWhile Char.isDigit
  let afterWhole := text.dropWhile Char.isDigit
  let (fraction, rest) := match afterWhole with
    | '.' :: more => (more.takeWhile Char.isDigit, more.dropWhile Char.isDigit)
    | other => ([], other)
  if whole ++ fraction = [] then none
  else (readExponent? rest).map fun exponent =>
    ⟨ofDigits (whole ++ fraction), exponent - fraction.length⟩

/-- The number that stands for a word without sign. -/
def readWord? (text : List Char) : Option Float :=
  let lower := text.map Char.toLower
  if lower = ['i', 'n', 'f'] ∨ lower = ['i', 'n', 'f', 'i', 'n', 'i', 't', 'y'] then
    some Binary64.infinity
  else if lower = ['n', 'a', 'n'] then some Binary64.nan
  else none

/-- The number that a text denotes. -/
def read? (text : List Char) : Option Float :=
  let (negative, rest) := splitSign text
  ((readUnsigned? rest).map toFloat <|> readWord? rest).map (Binary64.withSign negative)

/-- The finite number that a text denotes. -/
def readFinite? (text : List Char) : Option Float :=
  (read? text).filter Float.isFinite

end DomainColoring.Decimal
