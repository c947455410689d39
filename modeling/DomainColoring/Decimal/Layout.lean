import DomainColoring.Decimal.Shortest

/-!
# Layouts of a shortest decimal

A layout says how the shortest digits of a binary64 number are set out as text: which
exponents are written positionally, whether a whole number keeps a point, and what stands
for the numbers that are not finite.
-/

namespace DomainColoring.Decimal

/-- The decisions of a number format. -/
structure Layout where
  /-- Which of two equally near shortest decimals is written. -/
  tie : Shortest.Tie
  /-- The least and the greatest leading exponent written positionally; without bounds, every
  number is. -/
  positional : Option (Int × Int)
  /-- Whether a whole number is written with `.0`. -/
  wholePoint : Bool
  /-- The text of what is not a number. -/
  notNumber : List Char
  /-- The text of an infinity, without its sign, and whether it takes one. -/
  infinite : List Char
  signedInfinite : Bool

namespace Layout

/-- Messages and names write every number positionally and whole numbers without a point. -/
def plain : Layout where
  tie := .up
  positional := none
  wholePoint := false
  notNumber := ['N', 'a', 'N']
  infinite := ['i', 'n', 'f']
  signedInfinite := true

/-- Settings files write numbers from `1e-5` up to `1e16` positionally, whole ones with `.0`,
and have no number that is not finite. -/
def json : Layout where
  tie := .toEven
  positional := some (-5, 15)
  wholePoint := true
  notNumber := ['n', 'u', 'l', 'l']
  infinite := ['n', 'u', 'l', 'l']
  signedInfinite := false

/-- Digits with the point set after the one of exponent zero, zeros filling up to it. -/
def positionalText (wholePoint : Bool) (d : Decimal) : List Char :=
  let ds := digits d.coefficient
  if 0 ≤ d.exponent then
    ds ++ List.replicate d.exponent.toNat '0' ++ (if wholePoint then ['.', '0'] else [])
  else
    let places := (-d.exponent).toNat
    if places < ds.length then
      ds.take (ds.length - places) ++ '.' :: ds.drop (ds.length - places)
    else '0' :: '.' :: List.replicate (places - ds.length) '0' ++ ds

/-- The text of an integer with its sign always written. -/
def signedInteger (e : Int) : List Char :=
  (if e < 0 then '-' else '+') :: digits e.natAbs

/-- One digit, the others behind a point if there are any, and the exponent with its sign. -/
def exponentText (d : Decimal) : List Char :=
  let ds := digits d.coefficient
  let lead := d.exponent + (ds.length - 1 : Nat)
  match ds with
  | [] => []
  | [digit] => digit :: 'e' :: signedInteger lead
  | digit :: more => digit :: '.' :: more ++ 'e' :: signedInteger lead

/-- The text of a magnitude given by its shortest decimal. -/
def magnitudeText (layout : Layout) (d : Decimal) : List Char :=
  let lead := d.exponent + ((digits d.coefficient).length - 1 : Nat)
  match layout.positional with
  | none => positionalText layout.wholePoint d
  | some (least, greatest) =>
    if d.coefficient = 0 ∨ (least ≤ lead ∧ lead ≤ greatest) then
      positionalText layout.wholePoint d
    else exponentText d

/-- The text of a number; minus zero keeps its sign. -/
def chars (layout : Layout) (x : Float) : List Char :=
  let sign := if Binary64.isNegative x then ['-'] else []
  if x.isNaN then layout.notNumber
  else if x.isInf then
    (if layout.signedInfinite then sign else []) ++ layout.infinite
  else sign ++ layout.magnitudeText (Shortest.of layout.tie x)

/-- The text of a number as a string. -/
def text (layout : Layout) (x : Float) : String :=
  String.ofList (layout.chars x)

end Layout

/-- The plain text of a number. -/
def plain (x : Float) : List Char := Layout.plain.chars x

end DomainColoring.Decimal
