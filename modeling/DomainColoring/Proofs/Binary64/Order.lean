import DomainColoring.Proofs.Binary64.Fields

/-!
# The order of binary64 numbers

Numbers compare as their signed counts of units do, infinities included, and the two zeros
count the same. Everything about the order of numbers that is not about what is no number
follows from that of the integers. What is no number is outside of the order altogether.
-/

namespace DomainColoring.Binary64

open Float.Model

/-- The units of a number with its sign. -/
def signedUnits (x : Float) : ℤ :=
  if isNegative x then -(units x : ℤ) else units x

theorem units_eq_zero_iff (x : Float) : units x = 0 ↔ significand x = 0 := by
  rw [units_eq, Nat.mul_eq_zero]
  simp

/-- A number with a greater shift has more units, whatever the significands are. -/
theorem units_lt_of_shift_lt {x y : Float} (less : shift x < shift y) : units x < units y := by
  have small := significand_lt x
  have normal : 2 ^ 52 ≤ significand y := by
    rcases shift_eq_zero_or_le_significand y with none | normal
    · omega
    · exact normal
  rw [units_eq, units_eq]
  calc
    significand x * 2 ^ shift x < 2 ^ 53 * 2 ^ shift x :=
      Nat.mul_lt_mul_of_pos_right small (Nat.two_pow_pos _)
    _ = 2 ^ 52 * 2 ^ (shift x + 1) := by rw [← pow_add, ← pow_add]; congr 1; omega
    _ ≤ significand y * 2 ^ shift y :=
      Nat.mul_le_mul normal (Nat.pow_le_pow_right (by decide) less)

theorem compare_units (x y : Float) :
    (compare ((shift x : ℤ) - 1074) ((shift y : ℤ) - 1074)).then
        (compare (significand x) (significand y))
      = compare (units x) (units y) := by
  rcases Nat.lt_trichotomy (shift x) (shift y) with less | same | more
  · have first : compare ((shift x : ℤ) - 1074) ((shift y : ℤ) - 1074) = .lt := by
      rw [compare_lt_iff_lt]
      omega
    have whole : compare (units x) (units y) = .lt :=
      compare_lt_iff_lt.mpr (units_lt_of_shift_lt less)
    rw [first, whole]
    rfl
  · have first : compare ((shift x : ℤ) - 1074) ((shift y : ℤ) - 1074) = .eq := by
      rw [compare_eq_iff_eq]
      omega
    have positive : 0 < 2 ^ shift y := Nat.two_pow_pos _
    rw [first, units_eq, units_eq, same, ← cmp_eq_compare, ← cmp_eq_compare,
      cmp_mul_pos_right positive]
    rfl
  · have first : compare ((shift x : ℤ) - 1074) ((shift y : ℤ) - 1074) = .gt := by
      rw [compare_gt_iff_gt]
      omega
    have whole : compare (units x) (units y) = .gt :=
      compare_gt_iff_gt.mpr (units_lt_of_shift_lt more)
    rw [first, whole]
    rfl

/-- The shift of an infinity, which no finite number has. -/
def infiniteShift : ℕ := 2046

/-- The units that the fields of an infinity count. -/
def infiniteUnits : ℕ := 2 ^ 52 * 2 ^ infiniteShift

theorem infiniteUnits_pos : 0 < infiniteUnits :=
  Nat.mul_pos (by decide) (Nat.two_pow_pos _)

theorem units_lt_infiniteUnits {x : Float} (finite : shift x < infiniteShift) :
    units x < infiniteUnits := by
  have small := significand_lt x
  rw [units_eq, infiniteUnits]
  calc
    significand x * 2 ^ shift x < 2 ^ 53 * 2 ^ shift x :=
      Nat.mul_lt_mul_of_pos_right small (Nat.two_pow_pos _)
    _ = 2 ^ 52 * 2 ^ (shift x + 1) := by rw [← pow_add, ← pow_add]; congr 1; omega
    _ ≤ 2 ^ 52 * 2 ^ infiniteShift :=
      Nat.mul_le_mul_left _ (Nat.pow_le_pow_right (by decide) finite)

/-- A number is an infinity, a zero, which has no units, or a number in between. -/
theorem unpack_cases {x : Float} (number : x.isNaN = false) :
    (x.toModel.unpack = .infinity (sign x) ∧ units x = infiniteUnits) ∨
    (x.toModel.unpack = .zero (sign x) ∧ units x = 0) ∨
    (∃ positive, x.toModel.unpack =
      .finite (sign x) (significand x) ((shift x : ℤ) - 1074) positive ∧
        0 < units x ∧ units x < infiniteUnits) := by
  have bound := exponentField_lt x
  have fields := isNaN_iff x
  rw [number] at fields
  by_cases top : exponentField x = 2047
  · have none : fractionField x = 0 := by
      by_contra some
      exact absurd (fields.mpr ⟨top, some⟩) (by decide)
    have leading : significand x = 2 ^ 52 := by simp [significand, top, none]
    have place : shift x = infiniteShift := by simp [shift, top, infiniteShift]
    left
    constructor
    · rw [unpack_number, if_pos top, if_pos none]
    · rw [units_eq, leading, place, infiniteUnits]
  · have low : shift x < infiniteShift := by
      rw [shift, infiniteShift]
      omega
    have below := units_lt_infiniteUnits low
    by_cases empty : significand x = 0
    · right; left
      refine ⟨?_, (units_eq_zero_iff x).mpr empty⟩
      rw [unpack_number, if_neg top, dif_pos empty]
    · right; right
      refine ⟨Nat.pos_of_ne_zero empty, ?_, ?_, below⟩
      · rw [unpack_number, if_neg top, dif_neg empty]
      · exact Nat.pos_of_ne_zero fun zero => empty ((units_eq_zero_iff x).mp zero)

theorem compare_cast_cast (m n : ℕ) : compare (m : ℤ) (n : ℤ) = compare m n := by
  rcases Nat.lt_trichotomy m n with less | same | more
  · rw [compare_lt_iff_lt.mpr less, compare_lt_iff_lt]
    omega
  · rw [compare_eq_iff_eq.mpr same, compare_eq_iff_eq]
    omega
  · rw [compare_gt_iff_gt.mpr more, compare_gt_iff_gt]
    omega

theorem compare_neg_neg (m n : ℕ) : compare (-(m : ℤ)) (-(n : ℤ)) = (compare m n).swap := by
  rcases Nat.lt_trichotomy m n with less | same | more
  · rw [compare_lt_iff_lt.mpr less, Ordering.swap_lt, compare_gt_iff_gt]
    omega
  · rw [compare_eq_iff_eq.mpr same, Ordering.swap_eq, compare_eq_iff_eq]
    omega
  · rw [compare_gt_iff_gt.mpr more, Ordering.swap_gt, compare_lt_iff_lt]
    omega

/-- Comparing two numbers is comparing their signed units. -/
theorem compare_number {x y : Float} (xNumber : x.isNaN = false) (yNumber : y.isNaN = false) :
    x.toModel.unpack.compare y.toModel.unpack = some (compare (signedUnits x) (signedUnits y)) := by
  have together := compare_units x y
  have positive := infiniteUnits_pos
  have xCases := unpack_cases xNumber
  have yCases := unpack_cases yNumber
  -- How many units an infinity has does not matter, and the number is too large to look at.
  generalize infiniteUnits = top at positive xCases yCases
  rcases xCases with
    ⟨xKind, xUnits⟩ | ⟨xKind, xUnits⟩ | ⟨xPositive, xKind, xUnits, xBound⟩ <;>
  rcases yCases with
    ⟨yKind, yUnits⟩ | ⟨yKind, yUnits⟩ | ⟨yPositive, yKind, yUnits, yBound⟩ <;>
  rw [xKind, yKind, signedUnits, signedUnits, sign, sign] <;>
  cases isNegative x <;> cases isNegative y <;>
  simp [UnpackedFloat.compare, together, xUnits, yUnits] <;> symm
  all_goals first
    | exact compare_lt_iff_lt.mpr (by omega)
    | exact compare_gt_iff_gt.mpr (by omega)
    | exact compare_cast_cast _ _
    | exact compare_neg_neg _ _
    | rfl

theorem lt_iff_signedUnits {x y : Float} (xNumber : x.isNaN = false) (yNumber : y.isNaN = false) :
    x < y ↔ signedUnits x < signedUnits y := by
  have compared := compare_number xNumber yNumber
  have unfolded : x < y ↔ x.toModel.unpack.lt y.toModel.unpack = true := by
    change x.lt y = true ↔ _
    rw [Float.lt, decide_eq_true_iff]
    rfl
  rw [unfolded, UnpackedFloat.lt, compared, ← compare_lt_iff_lt]
  simp

theorem le_iff_signedUnits {x y : Float} (xNumber : x.isNaN = false) (yNumber : y.isNaN = false) :
    x ≤ y ↔ signedUnits x ≤ signedUnits y := by
  have compared := compare_number xNumber yNumber
  have unfolded : x ≤ y ↔ x.toModel.unpack.le y.toModel.unpack = true := by
    change x.le y = true ↔ _
    rw [Float.le, decide_eq_true_iff]
    rfl
  rw [unfolded, UnpackedFloat.le, compared, ← compare_le_iff_le]
  simp [Ordering.isLE_iff_ne_gt]

theorem beq_iff_signedUnits {x y : Float} (xNumber : x.isNaN = false)
    (yNumber : y.isNaN = false) : (x == y) = true ↔ signedUnits x = signedUnits y := by
  have compared := compare_number xNumber yNumber
  have unfolded : (x == y) = x.toModel.unpack.beq y.toModel.unpack := rfl
  rw [unfolded, UnpackedFloat.beq, compared, ← compare_eq_iff_eq]
  simp

end DomainColoring.Binary64
