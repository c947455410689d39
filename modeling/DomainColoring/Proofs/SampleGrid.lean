import DomainColoring.Proofs.Word
import DomainColoring.SampleGrid

/-!
# Numbers of samples

Along a grid whose sides are within the limits, a sample's number never wraps, and its column
and row follow from it.
-/

namespace DomainColoring

/-- There are samples, and no more of them along an axis than the limit allows. -/
structure SampleCounts.Fair (c : SampleCounts) : Prop where
  real_pos : 0 < c.real.toNat
  real_le : c.real.toNat ≤ 1048576
  imaginary_le : c.imaginary.toNat ≤ 1048576

namespace SampleGrid

/-- The columns and rows of all samples, row by row. -/
def positions (counts : SampleCounts) : List (UInt64 × UInt64) :=
  (List.range counts.imaginary.toNat).flatMap fun j =>
    (List.range counts.real.toNat).map fun i => (UInt64.ofNat i, UInt64.ofNat j)

theorem mem_positions {counts : SampleCounts} {p : UInt64 × UInt64} :
    p ∈ positions counts ↔ p.1 < counts.real ∧ p.2 < counts.imaginary := by
  obtain ⟨i, j⟩ := p
  simp only [positions, List.mem_flatMap, List.mem_map, List.mem_range, Prod.mk.injEq,
    UInt64.lt_iff_toNat_lt]
  constructor
  · rintro ⟨row, rowInside, column, columnInside, rfl, rfl⟩
    rw [UInt64.toNat_ofNat_of_lt' (Nat.lt_trans columnInside counts.real.toNat_lt),
      UInt64.toNat_ofNat_of_lt' (Nat.lt_trans rowInside counts.imaginary.toNat_lt)]
    exact ⟨columnInside, rowInside⟩
  · rintro ⟨columnInside, rowInside⟩
    exact ⟨j.toNat, rowInside, i.toNat, columnInside, UInt64.ofNat_toNat, UInt64.ofNat_toNat⟩

variable {g : SampleGrid} {i j : UInt64}

/-- The number of a sample is no word that wrapped around. -/
theorem number_toNat (fair : g.counts.Fair) (column : i < g.counts.real)
    (row : j < g.counts.imaginary) :
    (g.number i j).toNat = j.toNat * g.counts.real.toNat + i.toNat := by
  rw [UInt64.lt_iff_toNat_lt] at column row
  have rows : j.toNat * g.counts.real.toNat ≤ 1048576 * 1048576 :=
    Nat.mul_le_mul (Nat.le_of_lt (Nat.lt_of_lt_of_le row fair.imaginary_le)) fair.real_le
  have columns := Nat.lt_of_lt_of_le column fair.real_le
  exact Word.toNat_index (by omega)

theorem number_lt (fair : g.counts.Fair) (column : i < g.counts.real)
    (row : j < g.counts.imaginary) : g.number i j < 0xffffffffffffffff := by
  have number_eq := number_toNat fair column row
  rw [UInt64.lt_iff_toNat_lt] at column row ⊢
  have rows : j.toNat * g.counts.real.toNat ≤ 1048576 * 1048576 :=
    Nat.mul_le_mul (Nat.le_of_lt (Nat.lt_of_lt_of_le row fair.imaginary_le)) fair.real_le
  have columns := Nat.lt_of_lt_of_le column fair.real_le
  rw [number_eq]
  change _ < 18446744073709551615
  omega

/-- Column and row of a sample are found again from its number. -/
theorem position_number (fair : g.counts.Fair) (column : i < g.counts.real)
    (row : j < g.counts.imaginary) : g.position (g.number i j) = (i, j) := by
  have number_eq := number_toNat fair column row
  have columnInside := UInt64.lt_iff_toNat_lt.mp column
  rw [position, Prod.mk.injEq, ← UInt64.toNat_inj, ← UInt64.toNat_inj, UInt64.toNat_mod,
    UInt64.toNat_div, number_eq]
  constructor
  · rw [Nat.mul_add_mod_self_right, Nat.mod_eq_of_lt columnInside]
  · rw [Nat.mul_comm, Nat.mul_add_div fair.real_pos, Nat.div_eq_of_lt columnInside, Nat.add_zero]

/-- The key of a sample is that of its source point. -/
theorem key_number (fair : g.counts.Fair) (column : i < g.counts.real)
    (row : j < g.counts.imaginary) : g.key (g.number i j) = g.depthKey.key (g.point i j) := by
  rw [key, position_number fair column row]

end SampleGrid
end DomainColoring
