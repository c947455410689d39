import DomainColoring.Proofs.DepthTable.Sequence
import DomainColoring.Proofs.Raster
import DomainColoring.Proofs.SampleGrid
import DomainColoring.Rendering

/-!
# What a drawing shows

The samples of a grid may be placed in any order. Which of them fall on a pixel depends on the
function, the area and the grid only, and the pixel has the color of one of them; of which one
it is does not depend on the order either, unless a key is no number.
-/

namespace DomainColoring.Rendering

/-- The grid of samples that a style asks for. -/
def grid (area : Area) (width height : UInt64) (style : Style) : SampleGrid :=
  SampleGrid.make area (counts style width height) style

/-- The table after samples, by column and row, were placed one after another. -/
def placeInOrder (f : NamedMap) (area : Area) (extent : Extent) (grid : SampleGrid)
    (order : List (UInt64 × UInt64)) : DepthTable :=
  order.foldl (fun table p => place f area extent.width extent.height grid table p.1 p.2)
    (.empty extent)

/-- The color of a pixel with this owner. -/
def colorOf (grid : SampleGrid) (background : Color) : Option UInt64 → Color
  | some sample => grid.color sample
  | none => background

/-- `render` with the samples placed in a given order. -/
def renderInOrder (f : NamedMap) (area : Area) (width height : UInt64) (style : Style)
    (order : List (UInt64 × UInt64)) : Except PlotError Raster :=
  match sides : Raster.checkSides width height with
  | .error e => .error e
  | .ok () => do
    style.validate
    let extent := Raster.extent sides
    let table := placeInOrder f area extent (grid area width height style) order
    match Raster.ofPixels? extent
        (table.owners.map (colorOf (grid area width height style) style.background)) with
    | some raster => return raster
    | none => throw (.invalidRaster width height)

/-- The value of the sample in a column and a row lies on a pixel. -/
def LiesOn (f : NamedMap) (area : Area) (width height : UInt64) (style : Style)
    (x y i j : UInt64) : Prop :=
  i < (counts style width height).real ∧ j < (counts style width height).imaginary ∧
    area.pixel? (f.map ((grid area width height style).point i j)) width height = some (x, y)

/-- The key of the source point in a column and a row. -/
def sourceKey (area : Area) (width height : UInt64) (style : Style) (i j : UInt64) : Float :=
  style.depthKey.key ((grid area width height style).point i j)

/-- The place of the sample in a column and a row, counted row by row. -/
def index (width height : UInt64) (style : Style) (i j : UInt64) : Nat :=
  j.toNat * (counts style width height).real.toNat + i.toNat

/-- Of all samples on a pixel, this one has the greatest key, and of those with an equal key it
comes first. -/
def IsOnTop (f : NamedMap) (area : Area) (width height : UInt64) (style : Style)
    (x y i j : UInt64) : Prop :=
  LiesOn f area width height style x y i j ∧
    ∀ i' j', LiesOn f area width height style x y i' j' →
      sourceKey area width height style i' j' < sourceKey area width height style i j ∨
      (sourceKey area width height style i' j' == sourceKey area width height style i j) = true ∧
        index width height style i j ≤ index width height style i' j'

variable {f : NamedMap} {area : Area} {width height : UInt64} {extent : Extent} {style : Style}
  {order : List (UInt64 × UInt64)}

theorem placeAll_eq (g : SampleGrid) :
    placeAll f area extent g = placeInOrder f area extent g (SampleGrid.positions g.counts) := by
  rw [placeAll, placeInOrder, SampleGrid.positions, List.foldl_flatMap]
  simp only [List.foldl_map]
  rfl

/-- Drawing places the samples row by row. -/
theorem render_eq :
    render f area width height style =
      renderInOrder f area width height style
        (SampleGrid.positions (counts style width height)) := by
  unfold render renderInOrder
  simp only [placeAll_eq]
  rfl

/-- The offer of a sample whose value lies on a pixel. -/
def offer? (f : NamedMap) (area : Area) (width height : UInt64) (g : SampleGrid)
    (p : UInt64 × UInt64) : Option DepthTable.Offer :=
  (area.pixel? (f.map (g.point p.1 p.2)) width height).map fun pixel =>
    ⟨pixel.1, pixel.2, g.number p.1 p.2⟩

/-- Placing samples means to offer the pixels that their values lie on. -/
theorem placeInOrder_eq (g : SampleGrid) :
    placeInOrder f area extent g order =
      (DepthTable.empty extent).offerAll g.key
        (order.filterMap (offer? f area extent.width extent.height g)) := by
  rw [placeInOrder, DepthTable.offerAll]
  generalize DepthTable.empty extent = table
  induction order generalizing table with
  | nil => rfl
  | cons p rest inductionHypothesis =>
    rw [List.foldl_cons, inductionHypothesis, List.filterMap_cons, place, offer?]
    cases area.pixel? (f.map (g.point p.1 p.2)) extent.width extent.height with
    | none => rfl
    | some pixel => rfl

theorem fair_of_check {c : SampleCounts} (checked : c.check = .ok ()) : c.Fair := by
  unfold SampleCounts.check at checked
  split at checked
  · next admitted =>
    simp only [Limits.admits, Limits.samplesPerAxis, Bool.and_eq_true, decide_eq_true_eq,
      UInt64.le_iff_toNat_le] at admitted
    exact ⟨admitted.1.1, admitted.1.2, admitted.2.2⟩
  · cases checked

/-- A style that drawing accepts asks for a grid within the limits. -/
theorem fair_counts (sides : Raster.checkSides width height = .ok ())
    (valid : style.validate = .ok ()) : (counts style width height).Fair := by
  unfold counts
  cases sampling : style.sampling with
  | none =>
    obtain ⟨wide, narrow, -, short⟩ := Raster.sides_of_checkSides sides
    exact ⟨wide, Nat.le_trans narrow (by decide), Nat.le_trans short (by decide)⟩
  | some c =>
    apply fair_of_check
    simp only [Style.validate, sampling, bind, Except.bind] at valid
    repeat' split at valid
    all_goals first | exact valid | cases valid

/-- A drawing was made only if its sides and its style were accepted. -/
theorem accepted_of_render {raster : Raster}
    (rendered : render f area width height style = .ok raster) :
    Raster.checkSides width height = .ok () ∧ style.validate = .ok () := by
  unfold render at rendered
  split at rendered
  · cases rendered
  · next sides =>
    cases valid : style.validate with
    | error refused => simp [valid, bind, Except.bind] at rendered
    | ok _ => exact ⟨sides, rfl⟩

theorem size_owners_placeInOrder (g : SampleGrid) :
    (placeInOrder f area extent g order).owners.size = extent.size := by
  rw [placeInOrder_eq, DepthTable.size_owners, (DepthTable.offerAll_shape _ _ _).2,
    DepthTable.slots_size_empty]

/-- The drawing of samples that were placed in an order. -/
def drawn (f : NamedMap) (area : Area) (sides : Raster.checkSides width height = .ok ())
    (style : Style) (order : List (UInt64 × UInt64)) : Raster :=
  ⟨width, height,
    (placeInOrder f area (Raster.extent sides) (grid area width height style) order).owners.map
      (colorOf (grid area width height style) style.background)⟩

/-- Once sides and style are accepted, nothing is left that can fail. -/
theorem renderInOrder_eq (sides : Raster.checkSides width height = .ok ())
    (valid : style.validate = .ok ()) :
    renderInOrder f area width height style order =
      .ok (drawn f area sides style order) := by
  unfold renderInOrder
  split
  · next refused =>
    rw [sides] at refused
    cases refused
  · simp [valid, bind, Except.bind, Raster.ofPixels?, size_owners_placeInOrder]
    rfl

theorem number_of_pixels (sides : Raster.checkSides width height = .ok ()) :
    (width * height).toNat = width.toNat * height.toNat :=
  Word.toNat_mul (Raster.counted_of_checkSides sides)

/-- A check has nothing to say but that it passed. -/
theorem eq_ok_of_isOk {checked : Except PlotError Unit} (passed : checked.isOk = true) :
    checked = .ok () := by
  cases checked with
  | error refused => cases passed
  | ok _ => rfl

/-- Whether a drawing is made is decided by its sides and its style. -/
theorem exists_render_iff :
    (∃ raster, render f area width height style = .ok raster) ↔
      Raster.checkSides width height = .ok () ∧ style.validate = .ok () := by
  constructor
  · rintro ⟨raster, rendered⟩
    exact accepted_of_render rendered
  · rintro ⟨sides, valid⟩
    exact ⟨_, render_eq.trans (renderInOrder_eq sides valid)⟩

theorem whole_drawn (sides : Raster.checkSides width height = .ok ()) :
    (drawn f area sides style order).Whole := by
  refine ⟨?_, Raster.counted_of_checkSides sides⟩
  rw [drawn, Array.size_map, size_owners_placeInOrder]
  rfl

/-- A drawing is a whole raster with the sides that were asked for. -/
theorem whole_of_render {raster : Raster}
    (rendered : render f area width height style = .ok raster) :
    raster.width = width ∧ raster.height = height ∧ raster.Whole := by
  obtain ⟨sides, valid⟩ := accepted_of_render rendered
  rw [render_eq, renderInOrder_eq sides valid, Except.ok.injEq] at rendered
  subst rendered
  exact ⟨rfl, rfl, whole_drawn sides⟩

/-- A sample is offered a pixel exactly if its value lies on it. -/
theorem offered_iff (everySample : order.Perm (SampleGrid.positions (counts style width height)))
    {x y sample : UInt64} :
    ⟨x, y, sample⟩ ∈ order.filterMap (offer? f area width height (grid area width height style)) ↔
      ∃ i j, LiesOn f area width height style x y i j ∧
        sample = (grid area width height style).number i j := by
  simp only [List.mem_filterMap, everySample.mem_iff, SampleGrid.mem_positions, offer?,
    Option.map_eq_some_iff, DepthTable.Offer.mk.injEq]
  constructor
  · rintro ⟨⟨i, j⟩, ⟨column, row⟩, ⟨x', y'⟩, lies, rfl, rfl, rfl⟩
    exact ⟨i, j, ⟨column, row, lies⟩, rfl⟩
  · rintro ⟨i, j, ⟨column, row, lies⟩, rfl⟩
    exact ⟨(i, j), ⟨column, row⟩, (x, y), lies, rfl, rfl, rfl⟩

variable (f area) in
/-- The color of a pixel is that of the owner its slot settles on, after it was offered to the
samples that lie on the pixel. -/
theorem get_drawn (sides : Raster.checkSides width height = .ok ())
    (everySample : order.Perm (SampleGrid.positions (counts style width height)))
    {x y : UInt64} (column : x < width) (row : y < height) :
    ∃ samples : List UInt64,
      (∀ sample, sample ∈ samples ↔ ∃ i j, LiesOn f area width height style x y i j ∧
        sample = (grid area width height style).number i j) ∧
      (drawn f area sides style order).get x y =
        .ok (some (colorOf (grid area width height style) style.background
          (DepthTable.ownerOf (DepthTable.settle (grid area width height style).key samples
            DepthTable.vacant)))) := by
  let extent := Raster.extent sides
  have found : (DepthTable.empty extent).place? x y = some (y.toNat * width.toNat + x.toNat) :=
    (DepthTable.place?_empty extent x y).trans (if_pos ⟨column, row⟩)
  have inside := (DepthTable.place?_eq_some_iff.mp found).2.2
  refine ⟨_, fun sample => (DepthTable.mem_broughtTo found).trans (offered_iff everySample), ?_⟩
  have held : (DepthTable.empty extent).slots[y.toNat * width.toNat + x.toNat]? =
      some DepthTable.vacant := by
    rw [Array.getElem?_eq_getElem inside]
    exact congrArg some (DepthTable.slots_empty (Array.getElem?_eq_getElem inside))
  have settled := DepthTable.slots_offerAll (DepthTable.empty extent)
    (grid area width height style).key
    (order.filterMap (offer? f area extent.width extent.height (grid area width height style)))
    (y.toNat * width.toNat + x.toNat)
  rw [held, ← placeInOrder_eq] at settled
  rw [(whole_drawn sides).get_eq column row]
  simp only [drawn, Array.getElem?_map, DepthTable.getElem?_owners]
  rw [settled]
  rfl

/-- Of samples on a pixel, none of which has a key that is no number, the pixel is owned by the
one on top. -/
theorem isOnTop_owner (fair : (counts style width height).Fair) {x y : UInt64}
    {samples : List UInt64}
    (members : ∀ sample, sample ∈ samples ↔ ∃ i j, LiesOn f area width height style x y i j ∧
      sample = (grid area width height style).number i j)
    (numbers : ∀ i j, LiesOn f area width height style x y i j →
      (sourceKey area width height style i j).isNaN = false) {i j : UInt64}
    (lies : LiesOn f area width height style x y i j) :
    ∃ i j, IsOnTop f area width height style x y i j ∧
      DepthTable.ownerOf (DepthTable.settle (grid area width height style).key samples
        DepthTable.vacant) = some ((grid area width height style).number i j) := by
  have keyed : ∀ i j, LiesOn f area width height style x y i j →
      (grid area width height style).key ((grid area width height style).number i j) =
        sourceKey area width height style i j :=
    fun i j lies => SampleGrid.key_number fair lies.1 lies.2.1
  have best : DepthTable.IsBest (grid area width height style).key (· ∈ samples)
      (DepthTable.ownerOf (DepthTable.settle (grid area width height style).key samples
        DepthTable.vacant)) := by
    apply DepthTable.isBest_settle
    · intro sample member
      obtain ⟨i, j, lies, rfl⟩ := (members sample).mp member
      exact SampleGrid.number_lt fair lies.1 lies.2.1
    · intro sample member
      obtain ⟨i, j, lies, rfl⟩ := (members sample).mp member
      rw [keyed i j lies]
      exact numbers i j lies
  revert best
  generalize DepthTable.ownerOf (DepthTable.settle (grid area width height style).key samples
    DepthTable.vacant) = owner
  intro best
  cases owner with
  | none => exact absurd ((members _).mpr ⟨i, j, lies, rfl⟩) (best _)
  | some owner =>
    obtain ⟨member, above⟩ := best
    obtain ⟨top, row, topLies, rfl⟩ := (members owner).mp member
    refine ⟨top, row, ⟨topLies, fun i' j' otherLies => ?_⟩, rfl⟩
    have other := above _ ((members _).mpr ⟨i', j', otherLies, rfl⟩)
    rw [keyed _ _ topLies, keyed _ _ otherLies, UInt64.le_iff_toNat_le,
      SampleGrid.number_toNat fair topLies.1 topLies.2.1,
      SampleGrid.number_toNat fair otherLies.1 otherLies.2.1] at other
    exact other

/-- A drawing is made for any order of the samples if it is made at all. It has the asked sides,
and a pixel that no sample lies on is background; any other has the color of a sample on it,
and, if the keys of all of them are numbers, of the one on top. Which samples lie on a pixel does
not depend on the kind of key, and a sample's number tells its column and row. -/
theorem render_in_any_order {raster : Raster}
    (rendered : render f area width height style = .ok raster)
    (everySample : order.Perm (SampleGrid.positions (counts style width height))) :
    ∃ picture, renderInOrder f area width height style order = .ok picture ∧
      (order = SampleGrid.positions (counts style width height) → picture = raster) ∧
      picture.width = width ∧ picture.height = height ∧
      picture.pixels.size = width.toNat * height.toNat ∧
      (∀ x y, x < width → y < height → ∃ pixel, picture.get x y = .ok (some pixel) ∧
        ((∀ i j, ¬ LiesOn f area width height style x y i j) → pixel = style.background) ∧
        ((∃ i j, LiesOn f area width height style x y i j) →
          (∃ i j, LiesOn f area width height style x y i j ∧
            pixel = (grid area width height style).color
              ((grid area width height style).number i j)) ∧
          ((∀ i j, LiesOn f area width height style x y i j →
              (sourceKey area width height style i j).isNaN = false) →
            ∃ i j, IsOnTop f area width height style x y i j ∧
              pixel = (grid area width height style).color
                ((grid area width height style).number i j)))) ∧
      (∀ x y i j, LiesOn f area width height style x y i j →
        ((grid area width height style).number i j).toNat = index width height style i j ∧
        (grid area width height style).position ((grid area width height style).number i j) =
          (i, j)) ∧
      ∀ depthKey x y i j, LiesOn f area width height { style with depthKey := depthKey } x y i j ↔
        LiesOn f area width height style x y i j := by
  obtain ⟨sides, valid⟩ := accepted_of_render rendered
  have fair := fair_counts sides valid
  refine ⟨drawn f area sides style order, renderInOrder_eq sides valid, ?_, rfl, rfl,
    (whole_drawn sides).size, ?_, ?_, fun _ _ _ _ _ => Iff.rfl⟩
  · rintro rfl
    rw [render_eq, renderInOrder_eq sides valid] at rendered
    exact Except.ok.inj rendered
  · intro x y column row
    obtain ⟨samples, members, shown⟩ := get_drawn f area sides everySample column row
    refine ⟨_, shown, fun nobody => ?_, fun ⟨i, j, lies⟩ => ⟨?_, fun numbers => ?_⟩⟩
    · have none : samples = [] := by
        apply List.eq_nil_iff_forall_not_mem.mpr
        intro sample member
        obtain ⟨i, j, lies, -⟩ := (members sample).mp member
        exact nobody i j lies
      rw [none]
      rfl
    · have small : ∀ sample ∈ samples, sample < 0xffffffffffffffff := by
        intro sample member
        obtain ⟨i, j, lies, rfl⟩ := (members sample).mp member
        exact SampleGrid.number_lt fair lies.1 lies.2.1
      rcases DepthTable.ownerOf_settle (grid area width height style).key small
        with ⟨none, -⟩ | ⟨sample, member, owner⟩
      · have someSample := (members _).mpr ⟨i, j, lies, rfl⟩
        rw [none] at someSample
        cases someSample
      · obtain ⟨i', j', lies', rfl⟩ := (members sample).mp member
        exact ⟨i', j', lies', by rw [owner, colorOf]⟩
    · obtain ⟨top, line, onTop, owner⟩ := isOnTop_owner fair members numbers lies
      exact ⟨top, line, onTop, by rw [owner, colorOf]⟩
  · intro x y i j lies
    exact ⟨SampleGrid.number_toNat fair lies.1 lies.2.1,
      SampleGrid.position_number fair lies.1 lies.2.1⟩

/-- Two by two samples, all moved to the middle of a raster of one pixel. -/
theorem render_in_any_order_backwards :
    let f : NamedMap := ⟨.identity, fun _ => ⟨0.5, 0.5⟩⟩
    let area : Area := ⟨⟨0.0, 0.0⟩, ⟨1.0, 1.0⟩⟩
    let style : Style := { Style.standard with sampling := some ⟨2, 2⟩ }
    ∃ picture, renderInOrder f area 1 1 style [(1, 1), (0, 1), (1, 0), (0, 0)] = .ok picture ∧
      ∃ i j, IsOnTop f area 1 1 style 0 0 i j ∧
        picture.get 0 0 =
          .ok (some ((grid area 1 1 style).color ((grid area 1 1 style).number i j))) := by
  intro f area style
  have accepted : style.validate.isOk = true := by decide +kernel
  have valid : style.validate = .ok () := by
    cases validated : style.validate with
    | error refused =>
      rw [validated] at accepted
      cases accepted
    | ok _ => rfl
  have rendered : render f area 1 1 style = .ok _ := render_eq.trans (renderInOrder_eq rfl valid)
  obtain ⟨picture, made, -, -, -, -, shown, -⟩ :=
    render_in_any_order rendered
      (show [(1, 1), (0, 1), (1, 0), (0, 0)].Perm (SampleGrid.positions ⟨2, 2⟩) by decide)
  obtain ⟨pixel, found, -, painted⟩ := shown 0 0 (by decide) (by decide)
  have lies : LiesOn f area 1 1 style 0 0 0 0 := ⟨by decide, by decide, by decide +kernel⟩
  have numbers : ∀ i j, LiesOn f area 1 1 style 0 0 i j →
      (sourceKey area 1 1 style i j).isNaN = false := by
    rintro i j ⟨column, -, -⟩
    have leftOrRight : i = 0 ∨ i = 1 := by
      have columnInside : i.toNat < 2 := UInt64.lt_iff_toNat_lt.mp column
      rw [← UInt64.toNat_inj, ← UInt64.toNat_inj]
      change i.toNat = 0 ∨ i.toNat = 1
      omega
    change (0.0 + i.toFloat * (((1.0 : Float) - 0.0) / (2 + 1 : UInt64).toFloat)).isNaN = false
    rcases leftOrRight with rfl | rfl
    · decide +kernel
    · decide +kernel
  obtain ⟨i, j, onTop, rfl⟩ := (painted ⟨0, 0, lies⟩).2 numbers
  exact ⟨picture, made, i, j, onTop, found⟩

end DomainColoring.Rendering
