import DomainColoring.Json.Decoder

/-!
# Colors

Colors have three channels of eight bits.
-/

namespace DomainColoring

/-- A color by its red, green and blue channel. -/
structure Color where
  r : UInt8
  g : UInt8
  b : UInt8
deriving DecidableEq, Inhabited

namespace Color

/-- The color of a canvas with nothing drawn on it. -/
def lightGray : Color := ⟨211, 211, 211⟩

def toJson (c : Color) : Json :=
  .record [("r", .natural c.r.toUInt64), ("g", .natural c.g.toUInt64), ("b", .natural c.b.toUInt64)]

/-- A channel as a natural of at most 255. -/
def decodeChannel (value : Json) : Except DecodeError UInt8 :=
  (Json.decodeNatural 255 "u8" value).map UInt64.toUInt8

def record : Json.Record Color where
  expected := "struct Color"
  elements := " with 3 elements"
  fields := [
    ⟨"r", true, fun value c => do return { c with r := ← decodeChannel value }⟩,
    ⟨"g", true, fun value c => do return { c with g := ← decodeChannel value }⟩,
    ⟨"b", true, fun value c => do return { c with b := ← decodeChannel value }⟩]
  start := ⟨0, 0, 0⟩
  mayEndEarly := false

def decode : Json → Except DecodeError Color :=
  record.decode

end Color
end DomainColoring
