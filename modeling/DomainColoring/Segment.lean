import DomainColoring.PlotError

/-!
# Closed intervals
-/

namespace DomainColoring

/-- The numbers from `min` to `max`, both finite, with `min` at most `max`. -/
structure Segment where
  min : Float
  max : Float

namespace Segment

/-- The numbers from zero to one. -/
def unit : Segment := ⟨0.0, 1.0⟩

/-- Whether two numbers are the bounds of a segment. -/
def isValid (min max : Float) : Bool :=
  min.isFinite && max.isFinite && min ≤ max

/-- The segment with these bounds. -/
def make (min max : Float) : Except PlotError Segment :=
  if isValid min max then .ok ⟨min, max⟩ else .error (.invalidSegment min max)

def length (s : Segment) : Float :=
  s.max - s.min

/-- Whether a number lies in the segment, bounds included. -/
def contains (s : Segment) (x : Float) : Bool :=
  x ≥ s.min && x ≤ s.max

def toJson (s : Segment) : Json :=
  .record [("min", .real s.min), ("max", .real s.max)]

/-- Two numbers that may be the bounds of a segment. -/
def bounds : Json.Record (Float × Float) where
  expected := "struct SegmentRaw"
  elements := " with 2 elements"
  fields := [
    ⟨"min", true, fun value (_, max) => do return (← Json.decodeReal value, max)⟩,
    ⟨"max", true, fun value (min, _) => do return (min, ← Json.decodeReal value)⟩]
  start := (0.0, 0.0)
  mayEndEarly := false

/-- A segment by its bounds, which have to be valid. -/
def decode (value : Json) : Except DecodeError Segment := do
  let (min, max) ← bounds.decode value
  (make min max).mapError fun e => .refused e.message

end Segment
end DomainColoring
