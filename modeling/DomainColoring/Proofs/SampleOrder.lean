import DomainColoring.Proofs.Binary64.Exceptions
import DomainColoring.Proofs.Rendering

/-!
# The order of the samples of a grid

A grid is laid over an area whose right top corner lies above and to the right of the left bottom
one. That does not keep a side from being infinite, be it that a corner is or that the corners are
too far apart. The first sample then has no number for a key, and there is no order between it and
any other sample. Where the sides that the keys are taken from are finite, the samples are in a
strict total order, and a drawing does not depend on which of them is placed first.
-/

namespace DomainColoring

open Binary64

/-- The sides of an area that a key depends on are finite. -/
def DepthKey.Bounded (depthKey : DepthKey) (area : Area) : Prop :=
  match depthKey with
  | real => area.width.isFinite = true
  | imaginary => area.height.isFinite = true
  | magnitude => area.width.isFinite = true ∧ area.height.isFinite = true

/-! ## Coordinates along one axis -/

section Coordinate

variable {low high : Float} {count i : UInt64}

/-- The coordinate of the sample in a column, or in a row. -/
def coordinate (low high : Float) (count i : UInt64) : Float :=
  low + i.toFloat * ((high - low) / (count + 1).toFloat)

theorem isFinite_step (finite : (high - low).isFinite = true) (some : 1 ≤ count.toNat)
    (few : count.toNat ≤ 1048576) : ((high - low) / (count + 1).toFloat).isFinite = true := by
  have next : (count + 1).toNat = count.toNat + 1 := by
    rw [UInt64.toNat_add]
    change (count.toNat + 1) % 2 ^ 64 = _
    omega
  exact isFinite_div_toFloat finite (by omega) (by omega)

theorem isNaN_coordinate (less : low < high) (finite : (high - low).isFinite = true)
    (some : 1 ≤ count.toNat) (few : count.toNat ≤ 1048576) :
    (coordinate low high count i).isNaN = false :=
  isNaN_add ((sub_of_lt less).2 finite).1
    (isNaN_mul (isFinite_toFloat i) (isFinite_step finite some few))

/-- The first coordinate is finite if the side is. -/
theorem isFinite_first (less : low < high) (finite : (high - low).isFinite = true)
    (some : 1 ≤ count.toNat) (few : count.toNat ≤ 1048576) :
    (coordinate low high count 0).isFinite = true := by
  obtain ⟨t, zero⟩ := exists_zero_mul unpack_toFloat_zero (isFinite_step finite some few)
  exact isFinite_add_zero ((sub_of_lt less).2 finite).1 zero

/-- The first coordinate is no number if the side is infinite: zero times an infinite step is
none. -/
theorem isNaN_first (less : low < high) (infinite : (high - low).isFinite = false) :
    (coordinate low high count 0).isNaN = true := by
  have side : (high - low).isInf = true :=
    (isFinite_or_isInf (sub_of_lt less).1).resolve_left (by rw [infinite]; decide)
  exact isNaN_add_of_isNaN (isNaN_zero_mul unpack_toFloat_zero
    (isInf_div side (isFinite_toFloat _)))

/-- The first coordinate is never infinite: it is finite, or no number at all. -/
theorem isInf_first (less : low < high)
    (some : 1 ≤ count.toNat) (few : count.toNat ≤ 1048576) :
    (coordinate low high count 0).isInf = false := by
  cases side : (high - low).isFinite with
  | true => exact isInf_eq_false_of_isFinite (isFinite_first less side some few)
  | false => exact isInf_eq_false_of_isNaN (isNaN_first less side)

end Coordinate

theorem SampleCounts.bounds_of_check {counts : SampleCounts} (checked : counts.check = .ok ()) :
    (1 ≤ counts.real.toNat ∧ counts.real.toNat ≤ 1048576) ∧
      1 ≤ counts.imaginary.toNat ∧ counts.imaginary.toNat ≤ 1048576 := by
  unfold check at checked
  split at checked
  · next admitted =>
    simpa [Limits.admits, Limits.samplesPerAxis, UInt64.le_iff_toNat_le] using admitted
  · cases checked

/-- The corners of an accepted area are in order along both axes. -/
theorem Area.lt_of_make {leftBottom rightTop : ComplexNumber} {area : Area}
    (made : Area.make leftBottom rightTop = .ok area) :
    area.leftBottom.re < area.rightTop.re ∧ area.leftBottom.im < area.rightTop.im := by
  unfold make at made
  split at made
  · next valid =>
    cases made
    simpa [isValid] using valid
  · cases made

namespace SampleGrid

variable {area : Area} {counts : SampleCounts} {style : Style}

/-- The number belongs to a sample of the grid. -/
def Has (g : SampleGrid) (sample : UInt64) : Prop :=
  sample.toNat < g.counts.real.toNat * g.counts.imaginary.toNat

instance (g : SampleGrid) (sample : UInt64) : Decidable (g.Has sample) :=
  inferInstanceAs (Decidable (_ < _))

/-- A sample takes a pixel from another one. -/
def Before (g : SampleGrid) (s t : UInt64) : Prop :=
  DepthTable.precedes (g.key s, s) (g.key t, t) = true

/-- The samples of the grid are in a strict total order. -/
structure StrictlyOrdered (g : SampleGrid) : Prop where
  irreflexive : ∀ s, g.Has s → ¬ g.Before s s
  transitive : ∀ r s t, g.Has r → g.Has s → g.Has t → g.Before r s → g.Before s t → g.Before r t
  trichotomous : ∀ s t, g.Has s → g.Has t → s ≠ t →
    g.Before s t ∧ ¬ g.Before t s ∨ g.Before t s ∧ ¬ g.Before s t

theorem key_eq (area : Area) (counts : SampleCounts) (style : Style) (sample : UInt64) :
    (make area counts style).key sample = style.depthKey.key
      ⟨coordinate area.leftBottom.re area.rightTop.re counts.real (sample % counts.real),
        coordinate area.leftBottom.im area.rightTop.im counts.imaginary
          (sample / counts.real)⟩ :=
  rfl

/-- Over finite sides, every key is a number. -/
theorem isNaN_key {leftBottom rightTop : ComplexNumber}
    (made : Area.make leftBottom rightTop = .ok area) (checked : counts.check = .ok ())
    (bounded : style.depthKey.Bounded area) (sample : UInt64) :
    ((make area counts style).key sample).isNaN = false := by
  obtain ⟨across, up⟩ := Area.lt_of_make made
  obtain ⟨⟨someReal, fewReal⟩, someImaginary, fewImaginary⟩ :=
    SampleCounts.bounds_of_check checked
  rw [key_eq]
  cases kind : style.depthKey with
  | real =>
    rw [kind] at bounded
    exact isNaN_coordinate across bounded someReal fewReal
  | imaginary =>
    rw [kind] at bounded
    exact isNaN_coordinate up bounded someImaginary fewImaginary
  | magnitude =>
    rw [kind] at bounded
    exact isNaN_hypotenuse (isNaN_coordinate across bounded.1 someReal fewReal)
      (isNaN_coordinate up bounded.2 someImaginary fewImaginary)

/-- Over an infinite side, the first sample has no number for a key. -/
theorem isNaN_key_first {leftBottom rightTop : ComplexNumber}
    (made : Area.make leftBottom rightTop = .ok area) (checked : counts.check = .ok ())
    (unbounded : ¬ style.depthKey.Bounded area) :
    ((make area counts style).key 0).isNaN = true := by
  obtain ⟨across, up⟩ := Area.lt_of_make made
  obtain ⟨⟨someReal, fewReal⟩, someImaginary, fewImaginary⟩ :=
    SampleCounts.bounds_of_check checked
  rw [key_eq, UInt64.zero_mod, UInt64.zero_div]
  cases kind : style.depthKey with
  | real =>
    rw [kind] at unbounded
    exact isNaN_first across (Bool.not_eq_true _ ▸ unbounded)
  | imaginary =>
    rw [kind] at unbounded
    exact isNaN_first up (Bool.not_eq_true _ ▸ unbounded)
  | magnitude =>
    rw [kind] at unbounded
    apply isNaN_hypotenuse_of_isNaN
    · by_cases wide : area.width.isFinite = true
      · exact .inr (isNaN_first up (Bool.not_eq_true _ ▸ fun high => unbounded ⟨wide, high⟩))
      · exact .inl (isNaN_first across (Bool.not_eq_true _ ▸ wide))
    · exact isInf_first across someReal fewReal
    · exact isInf_first up someImaginary fewImaginary

/-- A key that is no number leaves a sample out of the order. -/
theorem not_before_of_isNaN {g : SampleGrid} {s t : UInt64}
    (nan : (g.key s).isNaN = true ∨ (g.key t).isNaN = true) : ¬ g.Before s t := by
  intro before
  simp only [Before, DepthTable.precedes, Bool.or_eq_true, Bool.and_eq_true,
    decide_eq_true_eq] at before
  have numbers : (g.key s).isNaN = false ∧ (g.key t).isNaN = false := by
    rcases before with greater | ⟨same, -⟩
    · exact (not_isNaN_of_lt greater).symm
    · exact not_isNaN_of_beq same
  rw [numbers.1, numbers.2] at nan
  simp at nan

/-- No sample is before itself, whether its key is a number or not. -/
theorem not_before_self (g : SampleGrid) (s : UInt64) : ¬ g.Before s s := by
  cases number : (g.key s).isNaN with
  | true => exact not_before_of_isNaN (.inl number)
  | false => exact DepthTable.not_precedes_self number s

theorem strictlyOrdered_of_numbers {g : SampleGrid} (numbers : ∀ s, (g.key s).isNaN = false) :
    g.StrictlyOrdered := by
  have asymmetric : ∀ s t, g.Before s t → ¬ g.Before t s := by
    intro s t before after
    have same := DepthTable.wins_antisymm numbers (.inr before) (.inr after)
    exact g.not_before_self t (same ▸ before)
  refine ⟨fun s _ => g.not_before_self s, ?_, ?_⟩
  · intro r s t _ _ _ first second
    rcases DepthTable.wins_trans numbers (.inr first) (.inr second) with same | before
    · exact absurd (same ▸ first) (asymmetric s t second)
    · exact before
  · intro s t _ _ different
    rcases DepthTable.wins_total numbers s t with (same | before) | (same | before)
    · exact absurd same different
    · exact .inl ⟨before, asymmetric s t before⟩
    · exact absurd same.symm different
    · exact .inr ⟨before, asymmetric t s before⟩

theorem strictlyOrdered_single {g : SampleGrid} (single : g.counts = ⟨1, 1⟩) :
    g.StrictlyOrdered := by
  have first : ∀ s, g.Has s → s = 0 := by
    intro s has
    rw [Has, single] at has
    exact UInt64.toNat_inj.mp (Nat.lt_one_iff.mp has)
  refine ⟨fun s _ => g.not_before_self s, ?_, ?_⟩
  · intro r s t hasR hasS _ before _
    rw [first r hasR, first s hasS] at before
    exact absurd before (g.not_before_self 0)
  · intro s t hasS hasT different
    exact absurd ((first s hasS).trans (first t hasT).symm) different

/-- If the first sample has no number for a key, it has to be the only one for the order to be
strict. -/
theorem single_of_strictlyOrdered {g : SampleGrid} (ordered : g.StrictlyOrdered)
    (nan : (g.key 0).isNaN = true) (someReal : 1 ≤ g.counts.real.toNat)
    (someImaginary : 1 ≤ g.counts.imaginary.toNat) : g.counts = ⟨1, 1⟩ := by
  by_contra several
  have more : 1 < g.counts.real.toNat * g.counts.imaginary.toNat := by
    by_contra few
    have product : g.counts.real.toNat * g.counts.imaginary.toNat = 1 :=
      Nat.le_antisymm (Nat.le_of_not_lt few) (Nat.mul_le_mul someReal someImaginary)
    obtain ⟨real, imaginary⟩ := mul_eq_one.mp product
    apply several
    rw [SampleCounts.mk.injEq, ← UInt64.toNat_inj, ← UInt64.toNat_inj]
    exact ⟨real, imaginary⟩
  rcases ordered.trichotomous 0 1 (Nat.lt_trans Nat.zero_lt_one more) more (by decide)
    with ⟨before, -⟩ | ⟨before, -⟩
  · exact not_before_of_isNaN (.inl nan) before
  · exact not_before_of_isNaN (.inr nan) before

end SampleGrid

namespace Rendering

/-- Where all keys are numbers, samples may be placed in any order. -/
theorem drawn_perm {f : NamedMap} {area : Area} {width height : UInt64} {style : Style}
    {order order' : List (UInt64 × UInt64)} (sides : Raster.checkSides width height = .ok ())
    (valid : style.validate = .ok ())
    (everySample : order.Perm (SampleGrid.positions (counts style width height)))
    (everySample' : order'.Perm (SampleGrid.positions (counts style width height)))
    (numbers : ∀ s, ((grid area width height style).key s).isNaN = false) :
    drawn f area sides style order = drawn f area sides style order' := by
  have fair := fair_counts sides valid
  refine (whole_drawn sides).ext (whole_drawn sides) rfl rfl ?_
  intro x column y row
  obtain ⟨samples, members, shown⟩ := get_drawn f area sides everySample column row
  obtain ⟨samples', members', shown'⟩ := get_drawn f area sides everySample' column row
  have best : ∀ samples : List UInt64,
      (∀ sample, sample ∈ samples ↔ ∃ i j, LiesOn f area width height style x y i j ∧
        sample = (grid area width height style).number i j) →
      DepthTable.IsBest (grid area width height style).key
        (fun sample => ∃ i j, LiesOn f area width height style x y i j ∧
          sample = (grid area width height style).number i j)
        (DepthTable.ownerOf (DepthTable.settle (grid area width height style).key samples
          DepthTable.vacant)) := by
    intro samples members
    have offered := funext fun sample => propext (members sample)
    rw [← offered]
    apply DepthTable.isBest_settle
    · intro sample member
      obtain ⟨i, j, lies, rfl⟩ := (members sample).mp member
      exact SampleGrid.number_lt fair lies.1 lies.2.1
    · exact fun sample _ => numbers sample
  rw [shown, shown',
    DepthTable.isBest_unique numbers (best samples members) (best samples' members')]

end Rendering
namespace SampleGrid

/-- The samples of a grid over an accepted area are in a strict total order exactly if the sides
that the keys are taken from are finite, or if there is one sample only. Then a drawing is the same
whatever the order is in which the samples are placed. -/
theorem strictlyOrdered_iff {leftBottom rightTop : ComplexNumber} {area : Area}
    {counts : SampleCounts} (made : Area.make leftBottom rightTop = .ok area)
    (checked : counts.check = .ok ()) (style : Style) :
    ((make area counts style).StrictlyOrdered ↔
      style.depthKey.Bounded area ∨ counts = ⟨1, 1⟩) ∧
    ((make area counts style).StrictlyOrdered →
      ∀ (f : NamedMap) (width height : UInt64) (order : List (UInt64 × UInt64)) (raster : Raster),
        Rendering.counts style width height = counts → order.Perm (positions counts) →
        Rendering.render f area width height style = .ok raster →
        Rendering.renderInOrder f area width height style order = .ok raster) := by
  obtain ⟨⟨someReal, -⟩, someImaginary, -⟩ := SampleCounts.bounds_of_check checked
  have exact_when : (make area counts style).StrictlyOrdered →
      style.depthKey.Bounded area ∨ counts = ⟨1, 1⟩ := by
    intro ordered
    by_cases bounded : style.depthKey.Bounded area
    · exact .inl bounded
    · exact .inr (single_of_strictlyOrdered ordered (isNaN_key_first made checked bounded)
        someReal someImaginary)
  refine ⟨⟨exact_when, ?_⟩, ?_⟩
  · rintro (bounded | single)
    · exact strictlyOrdered_of_numbers (isNaN_key made checked bounded)
    · exact strictlyOrdered_single single
  · rintro ordered f width height order raster rfl everySample rendered
    obtain ⟨sides, valid⟩ := Rendering.accepted_of_render rendered
    rw [Rendering.render_eq, Rendering.renderInOrder_eq sides valid] at rendered
    rw [Rendering.renderInOrder_eq sides valid, ← rendered]
    congr 1
    rcases exact_when ordered with bounded | single
    · exact Rendering.drawn_perm sides valid everySample (.refl _)
        (isNaN_key made checked bounded)
    · rw [single] at everySample ⊢
      rw [List.perm_singleton.mp (everySample : order.Perm [(0, 0)])]
      rfl

/-- Two by two samples over a square of size one are in order. -/
theorem strictlyOrdered_square :
    ∃ area, Area.make ⟨0.0, 0.0⟩ ⟨1.0, 1.0⟩ = .ok area ∧
      (make area ⟨2, 2⟩ .standard).StrictlyOrdered := by
  have made : Area.make ⟨0.0, 0.0⟩ ⟨1.0, 1.0⟩ = .ok _ := if_pos (by decide +kernel)
  have bounded : Style.standard.depthKey.Bounded ⟨⟨0.0, 0.0⟩, ⟨1.0, 1.0⟩⟩ := by
    change Float.isFinite _ = true
    decide +kernel
  exact ⟨_, made, (strictlyOrdered_iff made rfl .standard).1.mpr (.inl bounded)⟩

/-- Between finite corners that are too far apart, the first of two samples in a row is neither
before nor after the second one, and the color of a pixel that all of two rows fall on depends on
which row is drawn first. -/
theorem not_strictlyOrdered_wide :
    let area : Area := ⟨⟨-1e308, 0.0⟩, ⟨1e308, 1.0⟩⟩
    let row : SampleGrid := make area ⟨2, 1⟩ .standard
    let f : NamedMap := ⟨.identity, fun _ => ⟨0.0, 0.5⟩⟩
    let style : Style := { Style.standard with sampling := some ⟨2, 2⟩ }
    Area.make ⟨-1e308, 0.0⟩ ⟨1e308, 1.0⟩ = .ok area ∧
      (⟨2, 1⟩ : SampleCounts).check = .ok () ∧
      row.Has 0 ∧ row.Has 1 ∧ ¬ row.Before 0 1 ∧ ¬ row.Before 1 0 ∧
      ∃ upwards downwards,
        Rendering.renderInOrder f area 1 1 style [(0, 0), (1, 0), (0, 1), (1, 1)] = .ok upwards ∧
        Rendering.renderInOrder f area 1 1 style [(0, 1), (1, 1), (0, 0), (1, 0)] =
          .ok downwards ∧
        upwards.get 0 0 ≠ downwards.get 0 0 := by
  intro area row f style
  have valid : style.validate = .ok () := Rendering.eq_ok_of_isOk (by decide +kernel)
  have nan : (row.key 0).isNaN = true := by decide +kernel
  refine ⟨if_pos (by decide +kernel), rfl, by decide, by decide, not_before_of_isNaN (.inl nan),
    not_before_of_isNaN (.inr nan), _, _, Rendering.renderInOrder_eq rfl valid,
    Rendering.renderInOrder_eq rfl valid, ?_⟩
  decide +kernel

end SampleGrid
end DomainColoring
