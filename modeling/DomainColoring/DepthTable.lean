import DomainColoring.Extent

/-!
# Who owns a pixel

Several samples may fall on one pixel. Each has a key, and the one with the greatest key
owns the pixel, of equal keys the one with the least number. The table keeps owners only,
never keys: a key is worked out again from the number of its sample.
-/

namespace DomainColoring

/-- The owner of each pixel, in rows of a width. A slot holds the number of the owner plus
one, and zero while nothing was offered. -/
structure DepthTable where
  width : UInt64
  slots : Array UInt64

namespace DepthTable

/-- The slot of a pixel without an owner. -/
def vacant : UInt64 := 0

/-- A table of pixels without owners. -/
def empty (extent : Extent) : DepthTable :=
  ⟨extent.width, Array.replicate extent.size vacant⟩

/-- The table for a raster with two sides, unless the number of its pixels is no word. -/
def make (width height : UInt64) : Except Overflow DepthTable :=
  (Extent.make width height).map empty

/-- Whether a sample takes a pixel from its owner, each given by key and number. -/
def precedes (candidate owner : Float × UInt64) : Bool :=
  candidate.1 > owner.1 || (candidate.1 == owner.1 && candidate.2 < owner.2)

/-- The place of a pixel in the table, if it lies inside. -/
def place? (t : DepthTable) (x y : UInt64) : Option Nat :=
  let place := y.toNat * t.width.toNat + x.toNat
  if x < t.width ∧ place < t.slots.size then some place else none

/-- Whether a sample takes a slot with this content. -/
def takes (keyOf : UInt64 → Float) (sample slot : UInt64) : Bool :=
  slot = vacant || precedes (keyOf sample, sample) (keyOf (slot - 1), slot - 1)

/-- Offers a pixel to a sample, and says whether the sample took it. The greatest word is the number
of no sample: no tag is left for it. -/
def offer (t : DepthTable) (keyOf : UInt64 → Float) (x y sample : UInt64) : Bool × DepthTable :=
  match t.place? x y with
  | none => (false, t)
  | some place =>
    match t.slots[place]? with
    | none => (false, t)
    | some slot =>
      if takes keyOf sample slot then
        (true, { t with slots := t.slots.setIfInBounds place (sample + 1) })
      else (false, t)

/-- The owner that a slot stands for. -/
def ownerOf (slot : UInt64) : Option UInt64 :=
  if slot = vacant then none else some (slot - 1)

/-- The owners of all pixels, row by row. -/
def owners (t : DepthTable) : Array (Option UInt64) :=
  t.slots.map ownerOf

end DepthTable
end DomainColoring
