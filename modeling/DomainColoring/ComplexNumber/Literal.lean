import DomainColoring.ComplexNumber
import DomainColoring.Decimal.Layout
import DomainColoring.Decimal.Reader
import DomainColoring.Text.Blank

/-!
# Literals of complex numbers

A literal is a real number, an imaginary number such as `2i`, `-i` or `i`, or a pair
`{1,0.5i}`. `Literal.read?` tries the three forms in this order, and `Literal.write` uses
the first that shows the number up to parts closer to zero than `1e-12`.
-/

namespace DomainColoring.Literal

/-- A part closer to zero than this is not written. -/
def negligible : Float := 1e-12

/-- The coefficient of an imaginary number; one stands unwritten in front of the unit. -/
def readImaginary? (text : List Char) : Option Float :=
  if text.getLast? = some 'i' then
    match text.dropLast with
    | [] => some 1.0
    | ['+'] => some 1.0
    | ['-'] => some (-1.0)
    | coefficient => Decimal.readFinite? coefficient
  else none

/-- A real and an imaginary number between braces, divided by the first comma, with white
space allowed around each. -/
def readPair? (text : List Char) : Option ComplexNumber :=
  match text with
  | '{' :: rest =>
    if rest.getLast? = some '}' then
      let inner := rest.dropLast
      match inner.dropWhile (· ≠ ',') with
      | [] => none
      | _ :: second => do
        let re ← Decimal.readFinite? (Text.trim (inner.takeWhile (· ≠ ',')))
        let im ← readImaginary? (Text.trim second)
        return ⟨re, im⟩
    else none
  | _ => none

/-- The number that a literal denotes: real, imaginary or pair, whichever reads first. -/
def read? (text : List Char) : Option ComplexNumber :=
  (Decimal.readFinite? text).map (⟨·, 0.0⟩)
    <|> (readImaginary? text).map (⟨0.0, ·⟩)
    <|> readPair? text

/-- The literal of a number, leaving out what is negligible. -/
def write (z : ComplexNumber) : List Char :=
  if z.im.abs < negligible then Decimal.plain z.re
  else if z.re.abs < negligible then
    if (z.im - 1.0).abs < negligible then ['i'] else Decimal.plain z.im ++ ['i']
  else '{' :: Decimal.plain z.re ++ ',' :: Decimal.plain z.im ++ ['i', '}']

/-- What is said about a text that is no literal. -/
def refusal (text : List Char) : String :=
  "not a complex literal: \"" ++ String.ofList text ++ "\""

end DomainColoring.Literal
