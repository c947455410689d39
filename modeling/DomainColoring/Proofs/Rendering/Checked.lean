import DomainColoring.Proofs.Area
import DomainColoring.Proofs.Outcome
import DomainColoring.Proofs.Raster.Places
import DomainColoring.Proofs.Rendering

/-!
# Drawings with every number checked

A drawing counts samples, cells, pixels and slots in words, and relies on its sides and its style
having been checked before. Here an image is drawn once more: each sum, product, difference,
quotient and remainder on the way has to be a word, and each pixel that is offered to a sample has
to have a slot; otherwise there is no drawing. For sides and styles that are accepted there is one,
whatever the function and the area are and in whatever order the samples are placed, and it is the
drawing that is made without these checks.
-/

namespace DomainColoring

theorem Style.meshCount_le_of_validate {style : Style} (valid : style.validate = .ok ()) :
    style.meshCount.toNat ≤ 10000 := by
  simp only [validate, Outcome.check_bind_eq_ok_iff] at valid
  obtain ⟨-, -, -, -, -, -, mesh, -⟩ := valid
  rw [checkMesh] at mesh
  split at mesh
  · next accepted =>
    simp only [Bool.and_eq_true, decide_eq_true_iff] at accepted
    exact UInt64.le_iff_toNat_le.mp accepted.1.1
  · cases mesh

/-- There is a sample in a column and a row. -/
def SampleCounts.Has (c : SampleCounts) (p : UInt64 × UInt64) : Prop :=
  p.1 < c.real ∧ p.2 < c.imaginary

namespace SampleGrid

/-- The grid of a number of samples over an area, if its cells and those of the mesh can be
counted. -/
def make? (area : Area) (counts : SampleCounts) (style : Style) : Option SampleGrid := do
  let columns ← Word.add? counts.real 1
  let rows ← Word.add? counts.imaginary 1
  let cells ← Word.add? style.meshCount 1
  return {
    origin := area.leftBottom
    counts := counts
    realStep := area.width / columns.toFloat
    imaginaryStep := area.height / rows.toFloat
    hueStart := style.hue.min
    hueStep := style.hue.length / columns.toFloat
    lightnessStart := style.lightness.min
    lightnessStep := style.lightness.length / rows.toFloat
    meshStepReal := area.width / cells.toFloat
    meshStepImaginary := area.height / cells.toFloat
    meshThickness := Binary64.maximum area.width area.height * style.meshThickness
    saturation := style.saturation
    meshSaturation := style.meshSaturation
    depthKey := style.depthKey }

/-- The number of the sample in a column and a row, if it is a word. -/
def number? (g : SampleGrid) (i j : UInt64) : Option UInt64 :=
  Word.index? j g.counts.real i

/-- The column and the row of the sample with a number, if there are columns. -/
def position? (g : SampleGrid) (sample : UInt64) : Option (UInt64 × UInt64) := do
  return (← Word.mod? sample g.counts.real, ← Word.div? sample g.counts.real)

/-- The key of the sample with a number, if its column and row are found. -/
def key? (g : SampleGrid) (sample : UInt64) : Option Float :=
  (g.position? sample).map fun (i, j) => g.depthKey.key (g.point i j)

/-- The color of the sample with a number, if its column and row are found. -/
def color? (g : SampleGrid) (sample : UInt64) : Option Color :=
  (g.position? sample).map fun _ => g.color sample

variable {g : SampleGrid} {counts : SampleCounts} {style : Style} {i j : UInt64}

theorem make?_eq (area : Area) (fair : counts.Fair) (few : style.meshCount.toNat ≤ 10000) :
    make? area counts style = some (make area counts style) := by
  have real := fair.real_le
  have imaginary := fair.imaginary_le
  have one : (1 : UInt64).toNat = 1 := rfl
  rw [make?, Word.add?_eq (by omega), Word.add?_eq (by omega), Word.add?_eq (by omega)]
  rfl

/-- The rows of samples in front of a sample, and the samples in front of it in its own row, are
fewer than all samples. -/
theorem number_lt_total (fair : g.counts.Fair) (column : i < g.counts.real)
    (row : j < g.counts.imaginary) :
    j.toNat * g.counts.real.toNat + i.toNat < g.counts.real.toNat * g.counts.imaginary.toNat ∧
      g.counts.real.toNat * g.counts.imaginary.toNat ≤ 2 ^ 40 := by
  refine ⟨Raster.index_lt (UInt64.lt_iff_toNat_lt.mp column) (UInt64.lt_iff_toNat_lt.mp row), ?_⟩
  exact Nat.le_trans (Nat.mul_le_mul fair.real_le fair.imaginary_le) (by decide)

theorem number?_eq (fair : g.counts.Fair) (column : i < g.counts.real)
    (row : j < g.counts.imaginary) : g.number? i j = some (g.number i j) := by
  obtain ⟨below, few⟩ := number_lt_total fair column row
  exact Word.index?_eq (by omega)

theorem position?_eq (fair : g.counts.Fair) (sample : UInt64) :
    g.position? sample = some (g.position sample) := by
  rw [position?, Word.mod?_eq fair.real_pos, Word.div?_eq fair.real_pos]
  rfl

theorem key?_eq (fair : g.counts.Fair) (sample : UInt64) :
    g.key? sample = some (g.key sample) := by
  rw [key?, position?_eq fair]
  rfl

theorem color?_eq (fair : g.counts.Fair) (sample : UInt64) :
    g.color? sample = some (g.color sample) := by
  rw [color?, position?_eq fair]
  rfl

end SampleGrid

namespace DepthTable

/-- Whether a sample takes a slot with this content, if the keys of both are found. A slot that is
not vacant is never zero, so there is something to subtract. -/
def takes? (key? : UInt64 → Option Float) (sample slot : UInt64) : Option Bool :=
  if slot = vacant then some true
  else do
    let owner ← Word.sub? slot 1
    return precedes (← key? sample, sample) (← key? owner, owner)

/-- Offers a pixel to a sample. Other than with `DepthTable.offer`, there is no result if the pixel
has no slot. -/
def offer? (t : DepthTable) (key? : UInt64 → Option Float) (x y sample : UInt64) :
    Option DepthTable := do
  let place ← Word.index? y t.width x
  let slot ← if x < t.width then t.slots[place.toNat]? else none
  if ← takes? key? sample slot then
    let tag ← Word.add? sample 1
    return { t with slots := t.slots.setIfInBounds place.toNat tag }
  else return t

/-- A table for a raster: it has a slot for each pixel. -/
structure IsFor (t : DepthTable) (extent : Extent) : Prop where
  sameWidth : t.width = extent.width
  size : t.slots.size = extent.size

variable {t : DepthTable} {keyOf : UInt64 → Float} {key? : UInt64 → Option Float}
  {extent : Extent} {x y sample : UInt64}

theorem isFor_empty (extent : Extent) : (empty extent).IsFor extent :=
  ⟨rfl, slots_size_empty extent⟩

/-- In a table for a raster, each pixel of the raster finds its slot. -/
theorem IsFor.place?_eq (isFor : t.IsFor extent) (column : x < extent.width)
    (row : y < extent.height) :
    t.place? x y = some (y.toNat * extent.width.toNat + x.toNat) := by
  have same := isFor_empty extent
  rw [place?_congr (isFor.sameWidth.trans same.sameWidth.symm)
    (isFor.size.trans same.size.symm), place?_empty, if_pos ⟨column, row⟩]

theorem IsFor.offer (isFor : t.IsFor extent) :
    (t.offer keyOf x y sample).2.IsFor extent := by
  obtain ⟨sameWidth, sameSize⟩ := t.offer_shape keyOf ⟨x, y, sample⟩
  exact ⟨sameWidth.trans isFor.sameWidth, sameSize.trans isFor.size⟩

theorem one_le_of_ne_vacant {slot : UInt64} (occupied : slot ≠ vacant) : 1 ≤ slot := by
  rw [UInt64.le_iff_toNat_le]
  exact Nat.one_le_iff_ne_zero.mpr fun none => occupied (UInt64.toNat_inj.mp none)

theorem takes?_eq (keys : ∀ s, key? s = some (keyOf s)) (sample slot : UInt64) :
    takes? key? sample slot = some (takes keyOf sample slot) := by
  rw [takes?, takes]
  split
  · next free => simp [free]
  · next occupied =>
    simp [occupied, Word.sub?_eq (one_le_of_ne_vacant occupied), keys]

/-- The pixel of a raster that is offered has a slot, and the tag of the sample is a word. -/
theorem IsFor.offer?_eq (isFor : t.IsFor extent) (keys : ∀ s, key? s = some (keyOf s))
    (column : x < extent.width) (row : y < extent.height)
    (numbered : sample.toNat + 1 < 2 ^ 64) :
    t.offer? key? x y sample = some (t.offer keyOf x y sample).2 := by
  have found := isFor.place?_eq column row
  obtain ⟨sameWidth, size⟩ := isFor
  rw [← sameWidth] at found column
  have inside := (place?_eq_some_iff.mp found).2.2
  obtain ⟨slot, held⟩ : ∃ slot, t.slots[y.toNat * t.width.toNat + x.toNat]? = some slot :=
    ⟨_, Array.getElem?_eq_getElem inside⟩
  rw [size] at inside
  have isWord : y.toNat * t.width.toNat + x.toNat < 2 ^ 64 := Nat.lt_trans inside extent.counted
  simp only [offer?, DepthTable.offer, Word.index?_eq isWord, Word.toNat_index isWord, held, found,
    if_pos column, takes?_eq keys, Option.bind_eq_bind, Option.bind_some]
  cases takes keyOf sample slot with
  | false => rfl
  | true =>
    rw [if_pos rfl, if_pos rfl, Word.add?_eq numbered]
    rfl

end DepthTable

namespace Rendering

/-- Offers the sample in a column and a row the pixel that its value lies on, with every number
checked. -/
def place? (f : NamedMap) (area : Area) (width height : UInt64) (grid : SampleGrid)
    (table : DepthTable) (p : UInt64 × UInt64) : Option DepthTable := do
  match ← area.checkedPixel? (f.map (grid.point p.1 p.2)) width height with
  | some (x, y) => table.offer? grid.key? x y (← grid.number? p.1 p.2)
  | none => return table

/-- The table after samples, by column and row, were placed one after another, with every number
checked. -/
def placeInOrder? (f : NamedMap) (area : Area) (width height : UInt64) (grid : SampleGrid)
    (order : List (UInt64 × UInt64)) : Option DepthTable := do
  order.foldlM (place? f area width height grid) (← (DepthTable.make width height).toOption)

/-- The color of a pixel with this content of its slot. -/
def pixelColor? (grid : SampleGrid) (background : Color) (slot : UInt64) : Option Color :=
  if slot = DepthTable.vacant then some background
  else do grid.color? (← Word.sub? slot 1)

/-- The drawing of samples that were placed in an order, with every number checked. -/
def drawn? (f : NamedMap) (area : Area) (width height : UInt64) (style : Style)
    (order : List (UInt64 × UInt64)) : Option Raster := do
  let grid ← SampleGrid.make? area (counts style width height) style
  let table ← placeInOrder? f area width height grid order
  let colors ← table.slots.mapM (pixelColor? grid style.background)
  (Raster.fromPixels width height colors).toOption.join

variable {f : NamedMap} {area : Area} {width height : UInt64} {extent : Extent} {style : Style}
  {g : SampleGrid} {table : DepthTable} {order : List (UInt64 × UInt64)} {i j : UInt64}

theorem isFor_place (isFor : table.IsFor extent) :
    (place f area width height g table i j).IsFor extent := by
  rw [place]
  cases area.pixel? (f.map (g.point i j)) width height with
  | none => exact isFor
  | some pixel => exact isFor.offer

/-- The step of a drawing: a sample is placed in a table for the raster. -/
theorem place?_eq (sides : Raster.checkSides width height = .ok ()) (fair : g.counts.Fair)
    (isFor : table.IsFor (Raster.extent sides)) (column : i < g.counts.real)
    (row : j < g.counts.imaginary) :
    place? f area width height g table (i, j) = some (place f area width height g table i j) := by
  obtain ⟨-, narrow, -, short⟩ := Raster.sides_of_checkSides sides
  obtain ⟨below, few⟩ := SampleGrid.number_lt_total fair column row
  have numbered : (g.number i j).toNat + 1 < 2 ^ 64 := by
    rw [SampleGrid.number_toNat fair column row]
    omega
  rw [place?, place, Area.checkedPixel?_eq (by omega), Option.bind_eq_bind, Option.bind_some]
  cases found : area.pixel? (f.map (g.point i j)) width height with
  | none => rfl
  | some pixel =>
    obtain ⟨x, y⟩ := pixel
    obtain ⟨xInside, yInside⟩ := Area.pixel?_lt (by omega) (by omega) found
    simp only [SampleGrid.number?_eq fair column row]
    exact isFor.offer?_eq (SampleGrid.key?_eq fair) xInside yInside numbered

/-- The run of a drawing: the samples are placed in any order, and so far the table is one for the
raster. -/
theorem placeInOrder?_eq (f : NamedMap) (area : Area)
    (sides : Raster.checkSides width height = .ok ()) (fair : g.counts.Fair)
    (inGrid : ∀ p ∈ order, g.counts.Has p) :
    placeInOrder? f area width height g order =
        some (placeInOrder f area (Raster.extent sides) g order) ∧
      (placeInOrder f area (Raster.extent sides) g order).IsFor (Raster.extent sides) := by
  have made : DepthTable.make width height = .ok (.empty (Raster.extent sides)) :=
    DepthTable.make_eq_ok_iff.mpr ⟨_, rfl, rfl, rfl⟩
  rw [placeInOrder?, made, Except.toOption, Option.bind_eq_bind, Option.bind_some, placeInOrder]
  have isFor := DepthTable.isFor_empty (Raster.extent sides)
  -- All that a step needs of the table so far is that it is one for the raster.
  generalize DepthTable.empty (Raster.extent sides) = table at isFor ⊢
  induction order generalizing table with
  | nil => exact ⟨rfl, isFor⟩
  | cons first rest inductionHypothesis =>
    obtain ⟨column, row⟩ := inGrid first List.mem_cons_self
    rw [List.foldlM_cons, place?_eq sides fair isFor column row, List.foldl_cons]
    exact inductionHypothesis (fun p member => inGrid p (List.mem_cons_of_mem _ member)) _
      (isFor_place isFor)

theorem pixelColor?_eq (fair : g.counts.Fair) (background : Color) (slot : UInt64) :
    pixelColor? g background slot = some (colorOf g background (DepthTable.ownerOf slot)) := by
  rw [pixelColor?, DepthTable.ownerOf]
  split
  · rfl
  · next occupied =>
    rw [Word.sub?_eq (DepthTable.one_le_of_ne_vacant occupied)]
    exact SampleGrid.color?_eq fair _

/-- Drawing with every number checked comes to the same as drawing, for sides and a style that are
accepted. -/
theorem drawn?_eq (f : NamedMap) (area : Area) (sides : Raster.checkSides width height = .ok ())
    (valid : style.validate = .ok ())
    (inGrid : ∀ p ∈ order, (counts style width height).Has p) :
    drawn? f area width height style order = some (drawn f area sides style order) := by
  have fair := fair_counts sides valid
  obtain ⟨placed, isFor⟩ := placeInOrder?_eq f area
    (g := grid area width height style) sides fair inGrid
  have made : SampleGrid.make? area (counts style width height) style =
      some (grid area width height style) :=
    SampleGrid.make?_eq area fair (Style.meshCount_le_of_validate valid)
  have colors : ∀ table : DepthTable, table.slots.mapM
      (pixelColor? (grid area width height style) style.background) =
        some (table.owners.map (colorOf (grid area width height style) style.background)) := by
    intro table
    rw [funext (pixelColor?_eq fair style.background), DepthTable.owners, Array.map_map]
    exact Array.mapM_pure
  rw [drawn?, made]
  simp only [placed, colors, Option.bind_eq_bind, Option.bind_some]
  have whole : (drawn f area sides style order).Whole := whole_drawn sides
  have accepted := Raster.fromPixels_eq_some_iff.mpr ⟨whole.counted, whole.size, rfl⟩
  exact congrArg (fun made => made.toOption.join) accepted

/-- The image of an area under a function, with every number checked. -/
def render? (f : NamedMap) (area : Area) (width height : UInt64) (style : Style) :
    Option Raster :=
  drawn? f area width height style (SampleGrid.positions (counts style width height))

theorem render?_eq (f : NamedMap) (area : Area) (sides : Raster.checkSides width height = .ok ())
    (valid : style.validate = .ok ()) :
    ∃ raster, render? f area width height style = some raster ∧
      render f area width height style = .ok raster := by
  refine ⟨drawn f area sides style (SampleGrid.positions (counts style width height)),
    drawn?_eq f area sides valid fun p => SampleGrid.mem_positions.mp, ?_⟩
  rw [render_eq, renderInOrder_eq sides valid]

/-- No number of a drawing leaves its range: each word is the number that it stands for, and the tag
of a sample is not the one of a vacant slot. A pixel that a point lies on is one of the raster, it is
found without going below zero, and it has a slot, whichever samples were placed before. -/
structure InRange (f : NamedMap) (area : Area) (width height : UInt64) (style : Style) : Prop where
  columns : ((counts style width height).real + 1).toNat =
    (counts style width height).real.toNat + 1
  rows : ((counts style width height).imaginary + 1).toNat =
    (counts style width height).imaginary.toNat + 1
  meshCells : (style.meshCount + 1).toNat = style.meshCount.toNat + 1
  samples : (counts style width height).real.toNat *
    (counts style width height).imaginary.toNat < 2 ^ 64 - 1
  number : ∀ i j, (counts style width height).Has (i, j) →
    ((grid area width height style).number i j).toNat =
        j.toNat * (counts style width height).real.toNat + i.toNat ∧
      ((grid area width height style).number i j).toNat <
        (counts style width height).real.toNat * (counts style width height).imaginary.toNat ∧
      (grid area width height style).number i j + 1 ≠ DepthTable.vacant
  pixels : (width * height).toNat = width.toNat * height.toNat
  place : ∀ x < width, ∀ y < height,
    (y * width + x).toNat = y.toNat * width.toNat + x.toNat ∧
      (y * width + x).toNat < (width * height).toNat
  pixel : ∀ z, area.checkedPixel? z width height = some (area.pixel? z width height) ∧
    ∀ x y, area.pixel? z width height = some (x, y) → x < width ∧ y < height
  slot : ∃ extent, Extent.make width height = .ok extent ∧
    ∀ order : List (UInt64 × UInt64), (∀ p ∈ order, (counts style width height).Has p) →
      ∀ x < width, ∀ y < height,
        (placeInOrder f area extent (grid area width height style) order).place? x y =
          some (y.toNat * width.toNat + x.toNat)
  anyOrder : ∀ order : List (UInt64 × UInt64), (∀ p ∈ order, (counts style width height).Has p) →
    ∃ raster, drawn? f area width height style order = some raster ∧
      renderInOrder f area width height style order = .ok raster
  inOrder : ∃ raster, render? f area width height style = some raster ∧
    render f area width height style = .ok raster

/-- Sides and a style that are accepted keep all numbers of a drawing in range. -/
theorem inRange (f : NamedMap) (area : Area) (sides : Raster.checkSides width height = .ok ())
    (valid : style.validate = .ok ()) : InRange f area width height style := by
  have fair := fair_counts sides valid
  have mesh := Style.meshCount_le_of_validate valid
  obtain ⟨-, narrow, -, short⟩ := Raster.sides_of_checkSides sides
  have size := number_of_pixels sides
  have successor : ∀ n : UInt64, n.toNat ≤ 1048576 → (n + 1).toNat = n.toNat + 1 := by
    intro n few
    rw [UInt64.toNat_add]
    exact Nat.mod_eq_of_lt (Nat.lt_of_le_of_lt (Nat.succ_le_succ few) (by decide))
  refine ⟨successor _ fair.real_le, successor _ fair.imaginary_le,
    successor _ (Nat.le_trans mesh (by decide)), ?_, ?_, size, ?_, ?_, ?_, ?_,
    render?_eq f area sides valid⟩
  · exact Nat.lt_of_le_of_lt (Nat.mul_le_mul fair.real_le fair.imaginary_le) (by decide)
  · rintro i j ⟨column, row⟩
    have numbered := SampleGrid.number_toNat (g := grid area width height style) fair column row
    refine ⟨numbered, ?_, ?_⟩
    · rw [numbered]
      exact (SampleGrid.number_lt_total (g := grid area width height style) fair column row).1
    · exact DepthTable.tag_ne_vacant (SampleGrid.number_lt fair column row)
  · intro x column y row
    have inside := Raster.index_lt (UInt64.lt_iff_toNat_lt.mp column)
      (UInt64.lt_iff_toNat_lt.mp row)
    have index := Word.toNat_index (Nat.lt_trans inside (Raster.counted_of_checkSides sides))
    exact ⟨index, by rwa [index, size]⟩
  · intro z
    exact ⟨Area.checkedPixel?_eq (by omega) area z width,
      fun x y found => Area.pixel?_lt (by omega) (by omega) found⟩
  · refine ⟨Raster.extent sides, Extent.make_eq_ok_iff.mpr ⟨rfl, rfl⟩, ?_⟩
    intro order inGrid x column y row
    obtain ⟨-, isFor⟩ := placeInOrder?_eq f area
      (g := grid area width height style) sides fair inGrid
    exact isFor.place?_eq column row
  · intro order inGrid
    exact ⟨_, drawn?_eq f area sides valid inGrid, renderInOrder_eq sides valid⟩

end Rendering

end DomainColoring
