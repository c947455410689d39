import DomainColoring.Color
import DomainColoring.PlotError

/-!
# Hue, saturation and lightness
-/

namespace DomainColoring

/-- A color by hue, saturation and lightness, each between zero and one. -/
structure Hsl where
  hue : Float
  saturation : Float
  lightness : Float

namespace Hsl

/-- Whether a component lies between zero and one. -/
def isUnit (value : Float) : Bool :=
  0.0 ≤ value && value ≤ 1.0

/-- The color with these components, if all are in range; otherwise the first that is not. -/
def make (hue saturation lightness : Float) : Except PlotError Hsl :=
  if !isUnit hue then .error (.colorOutOfRange .hue hue)
  else if !isUnit saturation then .error (.colorOutOfRange .saturation saturation)
  else if !isUnit lightness then .error (.colorOutOfRange .lightness lightness)
  else .ok ⟨hue, saturation, lightness⟩

/-- The value in range nearest to a component, and zero for one that is not finite. -/
def toUnit (value : Float) : Float :=
  if value.isFinite then Binary64.clamp value 0.0 1.0 else 0.0

/-- The color nearest to these components. -/
def clamped (hue saturation lightness : Float) : Hsl :=
  ⟨toUnit hue, toUnit saturation, toUnit lightness⟩

/-- The strength of a channel whose hue is `offset` away from that of the color, going from
`low` up to `high` and back once around the circle. -/
def strength (low high offset : Float) : Float :=
  let t := if offset > 1.0 then offset - 1.0 else if offset < 0.0 then offset + 1.0 else offset
  if t < 1.0 / 6.0 then low + (high - low) * 6.0 * t
  else if t < 0.5 then high
  else if t < 2.0 / 3.0 then low + (high - low) * (2.0 / 3.0 - t) * 6.0
  else low

/-- A strength as a channel: in range, and cut off to a whole number of 255ths. -/
def channel (value : Float) : UInt8 :=
  (Binary64.clamp value 0.0 1.0 * 255.0).toUInt8

/-- The color by its channels. -/
def toColor (c : Hsl) : Color :=
  let high :=
    if c.lightness < 0.5 then c.lightness * (1.0 + c.saturation)
    else c.lightness + c.saturation - c.lightness * c.saturation
  let low := 2.0 * c.lightness - high
  ⟨channel (strength low high (c.hue + 1.0 / 3.0)),
    channel (strength low high c.hue),
    channel (strength low high (c.hue - 1.0 / 3.0))⟩

end Hsl
end DomainColoring
