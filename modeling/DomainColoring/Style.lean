import DomainColoring.Color
import DomainColoring.DepthKey
import DomainColoring.Hsl
import DomainColoring.Segment

/-!
# Styles

A style says how a function is sampled and colored: hue follows the real axis of the source
points and lightness the imaginary one, and mesh lines are more saturated than the rest.
-/

namespace DomainColoring

/-- How many samples are taken along each axis. -/
structure SampleCounts where
  real : UInt64
  imaginary : UInt64
deriving DecidableEq

namespace SampleCounts

/-- The same number along both axes. -/
def square (count : UInt64) : SampleCounts := ⟨count, count⟩

/-- Accepts the numbers if drawing can use them. -/
def check (c : SampleCounts) : Except PlotError Unit :=
  if Limits.admits Limits.samplesPerAxis c.real
      && Limits.admits Limits.samplesPerAxis c.imaginary then .ok ()
  else .error (.invalidSampling c.real c.imaginary)

def toJson (c : SampleCounts) : Json :=
  .record [("real", .natural c.real), ("imaginary", .natural c.imaginary)]

def record : Json.Record SampleCounts where
  expected := "struct Sampling"
  elements := " with 2 elements"
  fields := [
    ⟨"real", true, fun value c => do return { c with real := ← Json.decodeCount value }⟩,
    ⟨"imaginary", true, fun value c => do return { c with imaginary := ← Json.decodeCount value }⟩]
  start := ⟨0, 0⟩
  mayEndEarly := false

def decode : Json → Except DecodeError SampleCounts :=
  record.decode

end SampleCounts

/-- How a function is sampled and colored. -/
structure Style where
  hue : Segment
  lightness : Segment
  depthKey : DepthKey
  /-- Without counts, there is one sample for each pixel. -/
  sampling : Option SampleCounts
  meshCount : UInt64
  /-- The thickness of mesh lines as a share of the longer side of the area. -/
  meshThickness : Float
  saturation : Float
  meshSaturation : Float
  background : Color

namespace Style

def standard : Style where
  hue := ⟨0.0, 0.95⟩
  lightness := ⟨0.05, 0.9⟩
  depthKey := .real
  sampling := none
  meshCount := 11
  meshThickness := 4e-3
  saturation := 0.5
  meshSaturation := 1.0
  background := .lightGray

/-- Accepts a component of a color between zero and one. -/
def checkComponent (component : ColorComponent) (value : Float) : Except PlotError Unit :=
  if Segment.unit.contains value then .ok () else .error (.colorOutOfRange component value)

/-- Accepts a number of mesh lines within the limit and a thickness that is finite and not
negative. -/
def checkMesh (count : UInt64) (thickness : Float) : Except PlotError Unit :=
  if count ≤ Limits.meshLines && thickness.isFinite && thickness ≥ 0.0 then .ok ()
  else .error (.invalidMesh count thickness)

/-- Accepts a style that drawing can use, or says what is wrong first. -/
def validate (s : Style) : Except PlotError Unit := do
  checkComponent .hue s.hue.min
  checkComponent .hue s.hue.max
  checkComponent .lightness s.lightness.min
  checkComponent .lightness s.lightness.max
  checkComponent .saturation s.saturation
  checkComponent .meshSaturation s.meshSaturation
  checkMesh s.meshCount s.meshThickness
  match s.sampling with
  | some counts => counts.check
  | none => return ()

def toJson (s : Style) : Json :=
  .record [
    ("hue", s.hue.toJson),
    ("lightness", s.lightness.toJson),
    ("z_order", s.depthKey.toJson),
    ("sampling", match s.sampling with
      | some counts => counts.toJson
      | none => .null),
    ("mesh_count", .natural s.meshCount),
    ("mesh_thickness", .real s.meshThickness),
    ("saturation", .real s.saturation),
    ("mesh_saturation", .real s.meshSaturation),
    ("background", s.background.toJson)]

def record : Json.Record Style where
  expected := "struct RenderOptions"
  elements := " with 9 elements"
  fields := [
    ⟨"hue", true, fun value s => do return { s with hue := ← Segment.decode value }⟩,
    ⟨"lightness", true, fun value s => do return { s with lightness := ← Segment.decode value }⟩,
    ⟨"z_order", true, fun value s => do return { s with depthKey := ← DepthKey.decode value }⟩,
    ⟨"sampling", false, fun value s => do
      return { s with sampling := ← Json.decodeOptional SampleCounts.decode value }⟩,
    ⟨"mesh_count", true, fun value s => do return { s with meshCount := ← Json.decodeCount value }⟩,
    ⟨"mesh_thickness", true, fun value s => do
      return { s with meshThickness := ← Json.decodeReal value }⟩,
    ⟨"saturation", true, fun value s => do return { s with saturation := ← Json.decodeReal value }⟩,
    ⟨"mesh_saturation", true, fun value s => do
      return { s with meshSaturation := ← Json.decodeReal value }⟩,
    ⟨"background", true, fun value s => do return { s with background := ← Color.decode value }⟩]
  start := standard
  mayEndEarly := false

def decode : Json → Except DecodeError Style :=
  record.decode

end Style
end DomainColoring
