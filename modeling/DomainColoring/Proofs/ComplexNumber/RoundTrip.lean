import DomainColoring.Proofs.Binary64.Truncation
import DomainColoring.Proofs.ComplexNumber.Literal

/-!
# Literals written and read again

Reading the literal of a number gives the number again, up to a part that is left out and a unit
that stands without a coefficient. What has a part that is no finite number is written as a text
that is no literal. How the reader treats texts that nothing writes is not said here.
-/

namespace DomainColoring.Literal

open Decimal Binary64

/-- The number that the literal of a number shows. -/
def shown (z : ComplexNumber) : ComplexNumber :=
  if z.im.abs < negligible then ⟨z.re, 0.0⟩
  else if z.re.abs < negligible then
    if (z.im - 1.0).abs < negligible then ⟨0.0, 1.0⟩ else ⟨0.0, z.im⟩
  else z

theorem negligible_unsigned : isNegative negligible = false := by
  decide

/-- The bound is not above `10 ^ -12`. -/
theorem units_negligible : units negligible * 10 ^ 12 ≤ one := by
  decide +kernel

theorem isFinite_of_negligible {x : Float} (small : x.abs < negligible) : x.isFinite = true :=
  isFinite_of_abs_lt negligible_unsigned small

theorem isFinite_of_near_one {x : Float} (near : (x - 1.0).abs < negligible) :
    x.isFinite = true :=
  isFinite_of_isFinite_sub (by decide) (isFinite_of_negligible near)

/-- The plain text of a number is a real literal if the number is finite. -/
theorem read?_plain (x : Float) :
    read? (plain x) = if x.isFinite then some ⟨x, 0.0⟩ else none := by
  cases finite : x.isFinite with
  | false =>
    rcases plain_of_not_isFinite finite with text | text | text <;> rw [text] <;> rfl
  | true => simp [read?, readFinite?_plain finite]

theorem readPair?_plain_unit {x : Float} (exceptional : x.isFinite = false) :
    readPair? (plain x ++ ['i']) = none := by
  rcases plain_of_not_isFinite exceptional with text | text | text <;> rw [text] <;> rfl

/-- With the unit behind it, it is an imaginary literal. -/
theorem read?_plain_unit (x : Float) :
    read? (plain x ++ ['i']) = if x.isFinite then some ⟨0.0, x⟩ else none := by
  rw [read?, readFinite?_plain_unit, readImaginary?_plain]
  cases finite : x.isFinite with
  | false => simp [readPair?_plain_unit finite]
  | true => simp

/-- A written number reads as what it shows, if its parts are finite, and not at all otherwise. -/
theorem read?_write (z : ComplexNumber) :
    read? (write z) = if z.isFinite then some (shown z) else none := by
  rw [write, shown, ComplexNumber.isFinite]
  by_cases real : z.im.abs < negligible
  · rw [if_pos real, if_pos real, read?_plain, isFinite_of_negligible real, Bool.and_true]
  · rw [if_neg real, if_neg real]
    by_cases imaginary : z.re.abs < negligible
    · rw [if_pos imaginary, if_pos imaginary, isFinite_of_negligible imaginary, Bool.true_and]
      by_cases unit : (z.im - 1.0).abs < negligible
      · rw [if_pos unit, if_pos unit, read?_unit, isFinite_of_near_one unit, if_pos rfl]
      · rw [if_neg unit, if_neg unit, read?_plain_unit]
    · have text : '{' :: plain z.re ++ ',' :: plain z.im ++ ['i', '}'] =
          '{' :: (pairText z ++ ['}']) := by simp [pairText]
      rw [if_neg imaginary, if_neg imaginary, text, read?_pairText, ComplexNumber.isFinite]

/-- What is left out is left out again. -/
theorem write_shown (z : ComplexNumber) : write (shown z) = write z := by
  by_cases real : z.im.abs < negligible
  · simp [write, shown, real, zero_negligible]
  · by_cases imaginary : z.re.abs < negligible
    · by_cases unit : (z.im - 1.0).abs < negligible
      · simp [write, shown, real, imaginary, unit, one_not_negligible, zero_negligible,
          one_near_one]
      · simp [write, shown, real, imaginary, unit, zero_negligible]
    · simp [write, shown, real, imaginary]

/-- The rational number that a finite number is. -/
def value (x : Float) : ℚ :=
  signedUnits x / one

/-- Whether two numbers are less than `10 ^ -12` apart, before any rounding. -/
def Close (x y : Float) : Prop :=
  |value x - value y| < 1 / 10 ^ 12

theorem close_of_units {x y : Float}
    (less : (signedUnits x - signedUnits y).natAbs < units negligible) : Close x y := by
  have positive : (0 : ℚ) < one := by exact_mod_cast Binary64.one_pos
  have counted : (signedUnits x - signedUnits y).natAbs * 10 ^ 12 < one := by
    calc
      (signedUnits x - signedUnits y).natAbs * 10 ^ 12 < units negligible * 10 ^ 12 :=
        Nat.mul_lt_mul_of_pos_right less (by decide)
      _ ≤ one := units_negligible
  rw [Close, value, value, ← sub_div, ← Int.cast_sub, abs_div, abs_of_pos positive,
    ← Int.cast_abs, Int.abs_eq_natAbs, div_lt_div_iff₀ positive (by positivity), one_mul]
  exact_mod_cast counted

theorem Close.refl (x : Float) : Close x x := by
  rw [Close, sub_self, abs_zero]
  positivity

theorem close_zero {x : Float} (small : x.abs < negligible) : Close 0.0 x := by
  have less := (units_lt_of_abs_lt negligible_unsigned small).2
  apply close_of_units
  rwa [signedUnits_zero, Int.zero_sub, Int.natAbs_neg, natAbs_signedUnits]

theorem close_one {x : Float} (near : (x - 1.0).abs < negligible) : Close 1.0 x := by
  apply close_of_units
  rw [← Int.natAbs_neg, Int.neg_sub]
  exact natAbs_sub_lt (isFinite_of_near_one near) (by decide) negligible_unsigned near

/-- Both parts of what is shown are close to those of the number. -/
theorem close_shown (z : ComplexNumber) :
    Close (shown z).re z.re ∧ Close (shown z).im z.im := by
  rw [shown]
  split
  · next real => exact ⟨.refl _, close_zero real⟩
  · split
    · next imaginary =>
      split
      · next unit => exact ⟨close_zero imaginary, close_one unit⟩
      · exact ⟨close_zero imaginary, .refl _⟩
    · exact ⟨.refl _, .refl _⟩

/-- The literal of a number with finite parts reads as the number without what is negligible, which
is close to it and has the same literal. The literal of any other number does not read at all. -/
theorem read_after_write (z : ComplexNumber) :
    read? (write z) = (if z.isFinite then some (shown z) else none) ∧
      (z.isFinite = true →
        write (shown z) = write z ∧ Close (shown z).re z.re ∧ Close (shown z).im z.im) :=
  ⟨read?_write z, fun _ => ⟨write_shown z, close_shown z⟩⟩

theorem read_after_write_nearly_unit :
    read? (write ⟨1e-13, 1.0000000000001⟩) = some ⟨0.0, 1.0⟩ ∧
      write ⟨0.0, 1.0⟩ = write ⟨1e-13, 1.0000000000001⟩ ∧
      Close 0.0 1e-13 ∧ Close 1.0 1.0000000000001 := by
  have finite : ComplexNumber.isFinite ⟨1e-13, 1.0000000000001⟩ = true := by decide +kernel
  have unit : shown ⟨1e-13, 1.0000000000001⟩ = ⟨0.0, 1.0⟩ := by
    rw [shown, if_neg (by decide +kernel), if_pos (by decide +kernel), if_pos (by decide +kernel)]
  obtain ⟨reads, kept⟩ := read_after_write ⟨1e-13, 1.0000000000001⟩
  obtain ⟨same, close⟩ := kept finite
  rw [unit] at reads same close
  rw [if_pos finite] at reads
  exact ⟨reads, same, close⟩

end DomainColoring.Literal
