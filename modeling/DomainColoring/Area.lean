import DomainColoring.PlotError

/-!
# Areas of the plane

An area is a rectangle with sides along the axes. It is looked at through a raster of
pixels whose origin is the left top corner.
-/

namespace DomainColoring

/-- The rectangle between two opposite corners. -/
structure Area where
  leftBottom : ComplexNumber
  rightTop : ComplexNumber

namespace Area

/-- Whether the second corner lies above and to the right of the first; no corner with a part
that is not a number does. -/
def isValid (leftBottom rightTop : ComplexNumber) : Bool :=
  rightTop.re > leftBottom.re && rightTop.im > leftBottom.im

/-- The area between two corners. -/
def make (leftBottom rightTop : ComplexNumber) : Except PlotError Area :=
  if isValid leftBottom rightTop then .ok ⟨leftBottom, rightTop⟩
  else .error (.invalidArea leftBottom rightTop)

/-- The square of a size around zero. -/
def centered (size : Float) : Except PlotError Area :=
  let half := size / 2.0
  make ⟨-half, -half⟩ ⟨half, half⟩

def width (a : Area) : Float :=
  a.rightTop.re - a.leftBottom.re

def height (a : Area) : Float :=
  a.rightTop.im - a.leftBottom.im

/-- The cell of a row of `count` cells in which a share of the whole lies, if it lies in one.
A share is not negative and below the count exactly if its whole part is. -/
def cell? (share : Float) (count : UInt64) : Option UInt64 :=
  if share ≥ 0.0 && share < count.toFloat then some share.toUInt64 else none

/-- The pixel of a raster over the area in which a point lies, if it lies in one. -/
def pixel? (a : Area) (z : ComplexNumber) (width height : UInt64) : Option (UInt64 × UInt64) :=
  if z.isFinite then do
    let column ← cell? ((z.re - a.leftBottom.re) / a.width * width.toFloat) width
    let row ← cell? ((z.im - a.leftBottom.im) / a.height * height.toFloat) height
    return (column, height - 1 - row)
  else none

def toJson (a : Area) : Json :=
  .record [("left_bottom", .list [.real a.leftBottom.re, .real a.leftBottom.im]),
    ("right_top", .list [.real a.rightTop.re, .real a.rightTop.im])]

/-- The two parts of a corner. -/
def parts : Json.Record ComplexNumber where
  expected := "an array of length 2"
  elements := ""
  fields := [
    ⟨"re", true, fun value z => do return { z with re := ← Json.decodeReal value }⟩,
    ⟨"im", true, fun value z => do return { z with im := ← Json.decodeReal value }⟩]
  start := .zero
  mayEndEarly := false

/-- A corner, which is an array of its two parts. -/
def decodeCorner : Json → Except DecodeError ComplexNumber
  | .array items closed => parts.decode (.array items closed)
  | found => Json.mismatch found parts.expected

/-- Two points that may be the corners of an area. -/
def corners : Json.Record (ComplexNumber × ComplexNumber) where
  expected := "struct AreaRaw"
  elements := " with 2 elements"
  fields := [
    ⟨"left_bottom", true, fun value (_, rightTop) => do return (← decodeCorner value, rightTop)⟩,
    ⟨"right_top", true, fun value (leftBottom, _) => do
      return (leftBottom, ← decodeCorner value)⟩]
  start := (.zero, .zero)
  mayEndEarly := false

/-- An area by its corners, which have to be valid. -/
def decode (value : Json) : Except DecodeError Area := do
  let (leftBottom, rightTop) ← corners.decode value
  (make leftBottom rightTop).mapError fun e => .refused e.message

end Area
end DomainColoring
