import DomainColoring.DepthTable
import DomainColoring.NamedMap
import DomainColoring.Raster
import DomainColoring.SampleGrid

/-!
# Drawing the image of an area

Each sample of the grid is moved by the function. Where it comes to lie on a pixel of the
raster over the same area, it is offered that pixel, and in the end each pixel has the color
of its owner.
-/

namespace DomainColoring

namespace Rendering

/-- Offers the sample in a column and a row the pixel that its value lies on. -/
def place (f : NamedMap) (area : Area) (width height : UInt64) (grid : SampleGrid)
    (table : DepthTable) (i j : UInt64) : DepthTable :=
  match area.pixel? (f.map (grid.point i j)) width height with
  | some (x, y) => (table.offer grid.key x y (grid.number i j)).2
  | none => table

/-- The table after the samples of a row were placed in order. -/
def placeRow (f : NamedMap) (area : Area) (width height : UInt64) (grid : SampleGrid)
    (table : DepthTable) (j : Nat) : DepthTable :=
  (List.range grid.counts.real.toNat).foldl
    (fun table i => place f area width height grid table (UInt64.ofNat i) (UInt64.ofNat j)) table

/-- The table after all samples of the grid were placed, row by row. -/
def placeAll (f : NamedMap) (area : Area) (extent : Extent) (grid : SampleGrid) : DepthTable :=
  (List.range grid.counts.imaginary.toNat).foldl
    (placeRow f area extent.width extent.height grid) (.empty extent)

/-- The number of samples that a style asks for on a raster. -/
def counts (style : Style) (width height : UInt64) : SampleCounts :=
  style.sampling.getD ⟨width, height⟩

/-- The image of an area under a function, on a raster over the same area. -/
def render (f : NamedMap) (area : Area) (width height : UInt64) (style : Style) :
    Except PlotError Raster :=
  match sides : Raster.checkSides width height with
  | .error e => .error e
  | .ok () => do
    style.validate
    let extent := Raster.extent sides
    let grid := SampleGrid.make area (counts style width height) style
    let colors := (placeAll f area extent grid).owners.map fun owner =>
      match owner with
      | some sample => grid.color sample
      | none => style.background
    match Raster.ofPixels? extent colors with
    | some raster => return raster
    | none => throw (.invalidRaster width height)

end Rendering
end DomainColoring
