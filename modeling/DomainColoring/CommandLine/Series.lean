import DomainColoring.Decimal.Rounded
import DomainColoring.NamedMap

/-!
# Functions that are drawn in series
-/

namespace DomainColoring.CommandLine

/-- A text without the copies of a character at its end. -/
def dropAtEnd (c : Char) (text : List Char) : List Char :=
  (text.reverse.dropWhile (· = c)).reverse

/-- A number with at most two places and no zeros at the end of them. -/
def shortNumber (x : Float) : List Char :=
  let text := dropAtEnd '.' (dropAtEnd '0' (Decimal.hundredths x))
  if text = ['-', '0'] then ['0'] else text

/-- The power with a real exponent. -/
def powerFunction (p : Float) : NamedMap :=
  NamedMap.identity.rightCompose
    ⟨.wrap [] ('^' :: shortNumber p), fun z => ComplexNumber.pow z ⟨p, 0.0⟩⟩

/-- The exponential with its argument in parentheses. -/
def exponential : NamedMap :=
  NamedMap.identity.rightCompose ⟨.wrap "exp(".toList [')'], ComplexNumber.exp⟩

/-- The elementary functions in the order in which they are drawn, by the names of their
files. -/
def elementaryFunctions : List (String × NamedMap) :=
  let named (before after : String) (map : ComplexNumber → ComplexNumber) : NamedMap :=
    NamedMap.identity.rightCompose ⟨.wrap before.toList after.toList, map⟩
  [
    ("sqrt", named "sqrt(" ")" .sqrt),
    ("exp", exponential),
    ("ln", named "ln " "" .ln),
    ("sin", named "sin " "" .sin),
    ("cos", named "cos " "" .cos),
    ("tan", named "tan " "" .tan)]

/-- The numbers of a series in equal steps. -/
def series (origin step : Float) (count : UInt64) : List (Nat × Float) :=
  (List.range count.toNat).map fun i => (i, origin + step * (UInt64.ofNat i).toFloat)

end DomainColoring.CommandLine
