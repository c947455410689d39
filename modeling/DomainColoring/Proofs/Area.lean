import DomainColoring.Area
import DomainColoring.Proofs.Binary64.Truncation
import DomainColoring.Proofs.Word

/-!
# Pixels of an area

A point of an area lies on a pixel of the raster over it, or on none. As long as the sides of the
raster are exact as numbers, the pixel is one of the raster, and the row from the top is found
without going below zero.
-/

namespace DomainColoring.Area

variable {a : Area} {z : ComplexNumber} {width height x y : UInt64}

theorem cell?_lt {share : Float} {count cell : UInt64} (small : count.toNat < 2 ^ 53)
    (found : cell? share count = some cell) : cell < count := by
  rw [cell?] at found
  split at found
  · next inside =>
    rw [Bool.and_eq_true, decide_eq_true_iff, decide_eq_true_iff] at inside
    cases found
    exact Binary64.toUInt64_lt inside.1 inside.2 small
  · cases found

/-- The column of a point and its row from the bottom, before the row is counted from the top. -/
theorem cells_of_pixel? (found : a.pixel? z width height = some (x, y)) :
    ∃ row, cell? ((z.re - a.leftBottom.re) / a.width * width.toFloat) width = some x ∧
      cell? ((z.im - a.leftBottom.im) / a.height * height.toFloat) height = some row ∧
      y = height - 1 - row := by
  rw [pixel?] at found
  split at found
  · obtain ⟨column, columnFound, found⟩ := Option.bind_eq_some_iff.mp found
    obtain ⟨row, rowFound, found⟩ := Option.bind_eq_some_iff.mp found
    cases found
    exact ⟨row, columnFound, rowFound, rfl⟩
  · cases found

/-- A row is not above the last one, so it is a row again when it is counted from the other side. -/
theorem turned_row {row : UInt64} (inside : row < height) :
    1 ≤ height ∧ row ≤ height - 1 ∧ height - 1 - row < height := by
  rw [UInt64.lt_iff_toNat_lt] at inside
  have rows : 1 ≤ height := UInt64.le_iff_toNat_le.mpr (Nat.one_le_of_lt inside)
  have last : (height - 1).toNat = height.toNat - 1 := UInt64.toNat_sub_of_le _ _ rows
  have above : row ≤ height - 1 := by
    rw [UInt64.le_iff_toNat_le, last]
    omega
  refine ⟨rows, above, ?_⟩
  rw [UInt64.lt_iff_toNat_lt, UInt64.toNat_sub_of_le _ _ above, last]
  omega

theorem pixel?_lt (narrow : width.toNat < 2 ^ 53) (short : height.toNat < 2 ^ 53)
    (found : a.pixel? z width height = some (x, y)) : x < width ∧ y < height := by
  obtain ⟨row, columnFound, rowFound, rfl⟩ := cells_of_pixel? found
  exact ⟨cell?_lt narrow columnFound, (turned_row (cell?_lt short rowFound)).2.2⟩

/-- The pixel that a point lies on or that it lies on none, unless a difference on the way goes
below zero. -/
def checkedPixel? (a : Area) (z : ComplexNumber) (width height : UInt64) :
    Option (Option (UInt64 × UInt64)) :=
  if z.isFinite then
    match cell? ((z.re - a.leftBottom.re) / a.width * width.toFloat) width,
      cell? ((z.im - a.leftBottom.im) / a.height * height.toFloat) height with
    | some column, some row => do
      let last ← Word.sub? height 1
      return some (column, ← Word.sub? last row)
    | _, _ => some none
  else some none

theorem checkedPixel?_eq (short : height.toNat < 2 ^ 53) (a : Area) (z : ComplexNumber)
    (width : UInt64) : a.checkedPixel? z width height = some (a.pixel? z width height) := by
  rw [checkedPixel?, pixel?]
  split
  · cases cell? ((z.re - a.leftBottom.re) / a.width * width.toFloat) width with
    | none => rfl
    | some column =>
      cases found : cell? ((z.im - a.leftBottom.im) / a.height * height.toFloat) height with
      | none => rfl
      | some row =>
        obtain ⟨rows, above, -⟩ := turned_row (cell?_lt short found)
        simp only [Word.sub?_eq rows, Word.sub?_eq above, Option.bind_eq_bind, Option.bind_some]
        rfl
  · rfl

end DomainColoring.Area
