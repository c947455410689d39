import DomainColoring.Json.Printer
import DomainColoring.Json.Reader
import DomainColoring.Raster
import DomainColoring.Style

/-!
# Settings

The settings of a run are read from a JSON file in which every member may be missing.
-/

namespace DomainColoring

/-- How plots are sized, sampled and colored. -/
structure Settings where
  version : UInt64
  /-- The sides of each panel, in pixels. -/
  width : UInt64
  height : UInt64
  /-- Samples along each axis for the image panel. -/
  quality : UInt64
  depthKey : DepthKey
  /-- The number of workers; without one, it is left open. -/
  threads : Option UInt64
  hue : Segment
  lightness : Segment
  meshCount : UInt64
  meshThickness : Float
  saturation : Float
  meshSaturation : Float
  background : Color

namespace Settings

/-- The newest version of settings that can be read. -/
def supportedVersion : UInt64 := 1

def standard : Settings where
  version := supportedVersion
  width := 1000
  height := 1000
  quality := 8000
  depthKey := Style.standard.depthKey
  threads := none
  hue := Style.standard.hue
  lightness := Style.standard.lightness
  meshCount := Style.standard.meshCount
  meshThickness := Style.standard.meshThickness
  saturation := Style.standard.saturation
  meshSaturation := Style.standard.meshSaturation
  background := Style.standard.background

/-- The style of a panel, with one sample for each pixel. -/
def style (s : Settings) : Style where
  hue := s.hue
  lightness := s.lightness
  depthKey := s.depthKey
  sampling := none
  meshCount := s.meshCount
  meshThickness := s.meshThickness
  saturation := s.saturation
  meshSaturation := s.meshSaturation
  background := s.background

/-- Accepts settings that a version can be read for. -/
def checkVersion (version : UInt64) : Except PlotError Unit :=
  if version ≤ supportedVersion then .ok ()
  else .error (.settings ("settings version " ++ toString version.toNat
    ++ " is newer than supported version " ++ toString supportedVersion.toNat))

/-- Accepts settings that drawing can use, or says what is wrong first. -/
def validate (s : Settings) : Except PlotError Unit := do
  checkVersion s.version
  Raster.checkSides s.width s.height
  (SampleCounts.square s.quality).check
  s.style.validate

def toJson (s : Settings) : Json :=
  .record [
    ("version", .natural s.version),
    ("width", .natural s.width),
    ("height", .natural s.height),
    ("quality", .natural s.quality),
    ("z_order", s.depthKey.toJson),
    ("threads", match s.threads with
      | some count => .natural count
      | none => .null),
    ("hue", s.hue.toJson),
    ("lightness", s.lightness.toJson),
    ("mesh_count", .natural s.meshCount),
    ("mesh_thickness", .real s.meshThickness),
    ("saturation", .real s.saturation),
    ("mesh_saturation", .real s.meshSaturation),
    ("background", s.background.toJson)]

def record : Json.Record Settings where
  expected := "struct RenderSettings"
  elements := " with 13 elements"
  fields := [
    ⟨"version", false, fun value s => do
      return { s with version := ← Json.decodeNatural (Nat.pow 2 32 - 1) "u32" value }⟩,
    ⟨"width", false, fun value s => do return { s with width := ← Json.decodeCount value }⟩,
    ⟨"height", false, fun value s => do return { s with height := ← Json.decodeCount value }⟩,
    ⟨"quality", false, fun value s => do return { s with quality := ← Json.decodeCount value }⟩,
    ⟨"z_order", false, fun value s => do return { s with depthKey := ← DepthKey.decode value }⟩,
    ⟨"threads", false, fun value s => do
      return { s with threads := ← Json.decodeOptional Json.decodeCount value }⟩,
    ⟨"hue", false, fun value s => do return { s with hue := ← Segment.decode value }⟩,
    ⟨"lightness", false, fun value s => do return { s with lightness := ← Segment.decode value }⟩,
    ⟨"mesh_count", false, fun value s => do
      return { s with meshCount := ← Json.decodeCount value }⟩,
    ⟨"mesh_thickness", false, fun value s => do
      return { s with meshThickness := ← Json.decodeReal value }⟩,
    ⟨"saturation", false, fun value s => do
      return { s with saturation := ← Json.decodeReal value }⟩,
    ⟨"mesh_saturation", false, fun value s => do
      return { s with meshSaturation := ← Json.decodeReal value }⟩,
    ⟨"background", false, fun value s => do
      return { s with background := ← Color.decode value }⟩]
  start := standard
  mayEndEarly := true

def decode : Json → Except DecodeError Settings :=
  record.decode

end Settings

/-- What a text holds, with nothing but space behind it. -/
def Json.decodeText {α : Type} (decode : Json → Except DecodeError α) (text : List Char) :
    Except DecodeError α := do
  let (value, ended) := Json.read text
  let decoded ← decode value
  if ended then return decoded else throw .malformed

/-- The settings that the text of a file holds, if drawing can use them. -/
def Settings.read (text : List Char) : Except PlotError Settings := do
  let settings ← (Json.decodeText decode text).mapError .unreadable
  settings.validate
  return settings

/-- The text of a settings file. -/
def Settings.write (s : Settings) : List Char :=
  s.toJson.indentedText 0

end DomainColoring
