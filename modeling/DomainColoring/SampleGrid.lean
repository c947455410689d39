import DomainColoring.Area
import DomainColoring.Style

/-!
# The grid of samples

Samples are taken on a grid over the area, starting in its left bottom corner. A sample is
known by its number, counted along the real axis first; its source point, its key and its
color follow from the number.
-/

namespace DomainColoring

/-- The steps of a grid and what its colors depend on. -/
structure SampleGrid where
  origin : ComplexNumber
  counts : SampleCounts
  realStep : Float
  imaginaryStep : Float
  hueStart : Float
  hueStep : Float
  lightnessStart : Float
  lightnessStep : Float
  meshStepReal : Float
  meshStepImaginary : Float
  meshThickness : Float
  saturation : Float
  meshSaturation : Float
  depthKey : DepthKey

namespace SampleGrid

/-- The grid of a number of samples over an area. -/
def make (area : Area) (counts : SampleCounts) (style : Style) : SampleGrid where
  origin := area.leftBottom
  counts := counts
  realStep := area.width / (counts.real + 1).toFloat
  imaginaryStep := area.height / (counts.imaginary + 1).toFloat
  hueStart := style.hue.min
  hueStep := style.hue.length / (counts.real + 1).toFloat
  lightnessStart := style.lightness.min
  lightnessStep := style.lightness.length / (counts.imaginary + 1).toFloat
  meshStepReal := area.width / (style.meshCount + 1).toFloat
  meshStepImaginary := area.height / (style.meshCount + 1).toFloat
  meshThickness := Binary64.maximum area.width area.height * style.meshThickness
  saturation := style.saturation
  meshSaturation := style.meshSaturation
  depthKey := style.depthKey

/-- The number of the sample in a column and a row. -/
def number (g : SampleGrid) (i j : UInt64) : UInt64 :=
  j * g.counts.real + i

/-- The column and the row of the sample with a number. -/
def position (g : SampleGrid) (sample : UInt64) : UInt64 × UInt64 :=
  (sample % g.counts.real, sample / g.counts.real)

/-- The source point in a column and a row. -/
def point (g : SampleGrid) (i j : UInt64) : ComplexNumber :=
  ⟨g.origin.re + i.toFloat * g.realStep, g.origin.im + j.toFloat * g.imaginaryStep⟩

/-- The key of the sample with a number. -/
def key (g : SampleGrid) (sample : UInt64) : Float :=
  let (i, j) := g.position sample
  g.depthKey.key (g.point i j)

/-- Whether a coordinate lies on a mesh line: a line begins just past the middle of each cell
of the mesh. -/
def isOnMesh (coordinate step thickness : Float) : Bool :=
  let t := Binary64.euclideanRemainder coordinate step
  t > step / 2.0 && t ≤ step / 2.0 + thickness

/-- The color of the sample with a number. -/
def color (g : SampleGrid) (sample : UInt64) : Color :=
  let (i, j) := g.position sample
  let point := g.point i j
  let onMesh := isOnMesh point.re g.meshStepReal g.meshThickness
    || isOnMesh point.im g.meshStepImaginary g.meshThickness
  (Hsl.clamped (g.hueStart + i.toFloat * g.hueStep)
    (if onMesh then g.meshSaturation else g.saturation)
    (g.lightnessStart + j.toFloat * g.lightnessStep)).toColor

end SampleGrid
end DomainColoring
