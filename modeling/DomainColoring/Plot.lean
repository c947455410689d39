import DomainColoring.Rendering

/-!
# Plots of two panels

A plot shows the colored area on the left and its image under a function on the right, both
over the same area of the plane.
-/

namespace DomainColoring

/-- Where a panel lies on its canvas. -/
structure Panel where
  left : UInt64
  top : UInt64
  width : UInt64
  height : UInt64
deriving DecidableEq

/-- A canvas with two panels. -/
structure Plot where
  canvas : Raster
  preimage : Panel
  image : Panel

namespace Plot

/-- The gap between a panel and the side of the canvas. -/
def margin : UInt64 := 10

/-- The gap between the two panels beyond their margins. -/
def gap : UInt64 := 100

/-- Sides that drawing can use are so short that the sides of the canvas do not wrap around. -/
theorem toNat_sides {width height : UInt64} (sides : Raster.checkSides width height = .ok ()) :
    (2 * width + 4 * margin + gap).toNat = 2 * width.toNat + 140 ∧
      (height + 2 * margin).toNat = height.toNat + 20 ∧
      (3 * margin + gap + width).toNat = 130 + width.toNat := by
  obtain ⟨-, narrow, -, short⟩ := Raster.sides_of_checkSides sides
  have panels : (2 * width).toNat = 2 * width.toNat % 2 ^ 64 := UInt64.toNat_mul 2 width
  have bordered := UInt64.toNat_add (2 * width + 4 * margin) gap
  have margins := UInt64.toNat_add (2 * width) (4 * margin)
  have rows := UInt64.toNat_add height (2 * margin)
  have left := UInt64.toNat_add (3 * margin + gap) width
  have fourMargins : (4 * margin).toNat = 40 := rfl
  have twoMargins : (2 * margin).toNat = 20 := rfl
  have beside : (3 * margin + gap).toNat = 130 := rfl
  have gap_eq : gap.toNat = 100 := rfl
  omega

/-- The canvas for two panels of this size. -/
def canvasExtent {width height : UInt64} (sides : Raster.checkSides width height = .ok ()) :
    Extent where
  width := 2 * width + 4 * margin + gap
  height := height + 2 * margin
  counted := by
    obtain ⟨canvasWidth, canvasHeight, -⟩ := toNat_sides sides
    obtain ⟨-, narrow, -, short⟩ := Raster.sides_of_checkSides sides
    rw [canvasWidth, canvasHeight]
    exact Nat.lt_of_le_of_lt (Nat.mul_le_mul (Nat.add_le_add_right (Nat.mul_le_mul_left 2 narrow) _)
      (Nat.add_le_add_right short _)) (by decide)

/-- A plot with panels of this size, and nothing drawn. -/
def make (width height : UInt64) (background : Color) : Except PlotError Plot :=
  match sides : Raster.checkSides width height with
  | .error e => .error e
  | .ok () => .ok {
    canvas := .filled (canvasExtent sides) background
    preimage := ⟨margin, margin, width, height⟩
    image := ⟨3 * margin + gap + width, margin, width, height⟩ }

/-- The plot with a raster laid over a panel. -/
def lay (p : Plot) (panel : Panel) (raster : Raster) : Plot :=
  { p with canvas := p.canvas.blit raster panel.left panel.top }

/-- Draws the area into the left panel, one sample a pixel, and then its image into the right
one, with `quality` samples along each axis. When the second fails, the first stays drawn. -/
def draw (p : Plot) (f : NamedMap) (area : Area) (quality : UInt64) (style : Style) :
    Except PlotError Unit × Plot :=
  match Rendering.render .identity area p.preimage.width p.preimage.height
      { style with sampling := none } with
  | .error e => (.error e, p)
  | .ok preimage =>
    let p := p.lay p.preimage preimage
    match Rendering.render f area p.image.width p.image.height
        { style with sampling := some (.square quality) } with
    | .error e => (.error e, p)
    | .ok image => (.ok (), p.lay p.image image)

end Plot
end DomainColoring
