import DomainColoring.Color
import DomainColoring.Extent
import DomainColoring.PlotError

/-!
# Rasters

A raster is a rectangle of pixels, row by row from the top. Sides and places are 64-bit words. A
raster is made for an extent, and looking up a pixel stops the program if its place is no word.
-/

namespace DomainColoring

/-- Colors in rows from left to right and from top to bottom. -/
structure Raster where
  width : UInt64
  height : UInt64
  pixels : Array Color
deriving DecidableEq

namespace Raster

/-- Accepts two sides if drawing can use them. -/
def checkSides (width height : UInt64) : Except PlotError Unit :=
  if Limits.admits Limits.rasterSide width && Limits.admits Limits.rasterSide height then .ok ()
  else .error (.invalidRaster width height)

/-- Sides that drawing can use are short. -/
theorem sides_of_checkSides {width height : UInt64} (sides : checkSides width height = .ok ()) :
    0 < width.toNat ∧ width.toNat ≤ 16384 ∧ 0 < height.toNat ∧ height.toNat ≤ 16384 := by
  unfold checkSides at sides
  split at sides
  · next admitted =>
    simp only [Limits.admits, Limits.rasterSide, Bool.and_eq_true, decide_eq_true_eq,
      UInt64.le_iff_toNat_le] at admitted
    exact ⟨admitted.1.1, admitted.1.2, admitted.2.1, admitted.2.2⟩
  · cases sides

/-- The pixels of a raster that drawing can use are counted by a word. -/
theorem counted_of_checkSides {width height : UInt64} (sides : checkSides width height = .ok ()) :
    width.toNat * height.toNat < Nat.pow 2 64 := by
  obtain ⟨-, narrow, -, short⟩ := sides_of_checkSides sides
  exact Nat.lt_of_le_of_lt (Nat.mul_le_mul narrow short) (by decide)

/-- The extent of sides that drawing can use. -/
def extent {width height : UInt64} (sides : checkSides width height = .ok ()) : Extent :=
  ⟨width, height, counted_of_checkSides sides⟩

/-- A raster of one color. -/
def filled (extent : Extent) (color : Color) : Raster :=
  ⟨extent.width, extent.height, Array.replicate extent.size color⟩

/-- The raster with two sides of one color, unless the number of its pixels is no word. -/
def make (width height : UInt64) (color : Color) : Except Overflow Raster :=
  (Extent.make width height).map (filled · color)

/-- The raster of a list of pixels, if there are as many as the extent asks for. -/
def ofPixels? (extent : Extent) (pixels : Array Color) : Option Raster :=
  if pixels.size = extent.size then some ⟨extent.width, extent.height, pixels⟩ else none

/-- The raster with two sides of a list of pixels, if there are as many as the sides ask for; that
number has to be a word. -/
def fromPixels (width height : UInt64) (pixels : Array Color) :
    Except Overflow (Option Raster) :=
  (Extent.make width height).map (ofPixels? · pixels)

/-- The pixel in a column and a row. Only the column is compared with a side; the place that the row
leads to has to be a word. -/
def get (r : Raster) (x y : UInt64) : Except Overflow (Option Color) :=
  let place := y.toNat * r.width.toNat + x.toNat
  if r.width ≤ x then .ok none
  else if place < Nat.pow 2 64 then .ok r.pixels[place]?
  else .error {}

/-- An array with the items of another written over it from a place on. -/
def overwrite (pixels : Array Color) (start : Nat) (source : Array Color) : Array Color :=
  (List.range source.size).foldl
    (fun written k => match source[k]? with
      | some color => written.setIfInBounds (start + k) color
      | none => written)
    pixels

/-- The pixels of `r` with one row of `other` copied into it, cut off at the right side. The row
is left out if it lies below `r`. -/
def copyRow (r other : Raster) (left top visible : UInt64) (pixels : Array Color) (row : Nat) :
    Array Color :=
  let y := top.toNat + row
  let start := (UInt64.ofNat y * r.width + left).toNat
  let first := row * other.width.toNat
  let source := other.pixels.extract first (first + visible.toNat)
  if y < r.height.toNat ∧ start + visible.toNat ≤ pixels.size ∧ source.size = visible.toNat then
    overwrite pixels start source
  else pixels

/-- The number of rows that the pixels fill, the last of them maybe in part. -/
def rowCount (r : Raster) : Nat :=
  let width := max r.width.toNat 1
  (r.pixels.size + width - 1) / width

/-- The raster with another laid over it, the left top corner of which comes to lie in a column
and a row. What falls outside is cut off. -/
def blit (r other : Raster) (left top : UInt64) : Raster :=
  if left < r.width then
    let visible := min other.width (r.width - left)
    { r with
      pixels := (List.range other.rowCount).foldl (copyRow r other left top visible) r.pixels }
  else r

/-- The channels of all pixels in order. -/
def bytes (r : Raster) : List UInt8 :=
  r.pixels.toList.flatMap fun c => [c.r, c.g, c.b]

/-- The number of pixels of another color than this one. -/
def countNot (r : Raster) (color : Color) : Nat :=
  r.pixels.countP (· ≠ color)

/-- Why a raster cannot be saved as a picture: a side is too long for the format, there are too
few pixels, or a side is empty. -/
def pictureFault? (r : Raster) : Option PlotError :=
  let tooLong (side : UInt64) : PlotError :=
    .picture (toString side.toNat ++ " pixels is too large for an image side")
  if Nat.pow 2 32 ≤ r.width.toNat then some (tooLong r.width)
  else if Nat.pow 2 32 ≤ r.height.toNat then some (tooLong r.height)
  else if r.pixels.size < r.width.toNat * r.height.toNat then
    some (.invalidRaster r.width r.height)
  else if r.width = 0 then some (.picture "Zero width not allowed")
  else if r.height = 0 then some (.picture "Zero height not allowed")
  else none

end Raster
end DomainColoring
