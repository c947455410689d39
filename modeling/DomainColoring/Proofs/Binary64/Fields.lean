import DomainColoring.Binary64.Basic
import Mathlib

/-!
# The fields of a binary64 number

A number is its sign bit, its exponent field and its fraction field. `unpack_number` says
which number the fields stand for, so that what is proved about fields holds of the
arithmetic on numbers. Nothing here rounds.
-/

namespace DomainColoring.Binary64

open Float.Model

theorem exponentField_eq (x : Float) :
    exponentField x = x.toBits.toNat / 2 ^ 52 % 2 ^ 11 := by
  have mask : x.toBits.toNat / 2 ^ 52 &&& (2 ^ 11 - 1) = x.toBits.toNat / 2 ^ 52 % 2 ^ 11 :=
    Nat.and_two_pow_sub_one_eq_mod _ 11
  simpa [exponentField, Nat.shiftRight_eq_div_pow] using mask

theorem fractionField_eq (x : Float) : fractionField x = x.toBits.toNat % 2 ^ 52 := by
  have mask : x.toBits.toNat &&& (2 ^ 52 - 1) = x.toBits.toNat % 2 ^ 52 :=
    Nat.and_two_pow_sub_one_eq_mod _ 52
  simpa [fractionField] using mask

theorem isNegative_iff (x : Float) : isNegative x = true ↔ 2 ^ 63 ≤ x.toBits.toNat := by
  have bound := x.toBits.toNat_lt
  rw [isNegative, beq_iff_eq, ← UInt64.toNat_inj]
  simp [Nat.shiftRight_eq_div_pow]
  omega

theorem exponentField_lt (x : Float) : exponentField x < 2048 := by
  rw [exponentField_eq]
  exact Nat.mod_lt _ (by decide)

theorem fractionField_lt (x : Float) : fractionField x < 2 ^ 52 := by
  rw [fractionField_eq]
  exact Nat.mod_lt _ (by decide)

/-- A number is put together from its three fields. -/
theorem toBits_eq_fields (x : Float) :
    x.toBits.toNat =
      (if isNegative x then 2 ^ 63 else 0) + exponentField x * 2 ^ 52 + fractionField x := by
  have bound := x.toBits.toNat_lt
  have sign := isNegative_iff x
  rw [exponentField_eq, fractionField_eq]
  by_cases negative : isNegative x = true
  · have large := sign.mp negative
    rw [if_pos negative]
    omega
  · have small : ¬ 2 ^ 63 ≤ x.toBits.toNat := fun large => negative (sign.mpr large)
    rw [if_neg negative]
    omega

/-- Numbers with the same bits are the same. -/
theorem eq_of_toBits {x y : Float} (bits : x.toBits = y.toBits) : x = y := by
  obtain ⟨⟨left, leftValid⟩⟩ := x
  obtain ⟨⟨right, rightValid⟩⟩ := y
  have same : left = right := bits
  subst same
  rfl

/-- Numbers with the same three fields are the same. -/
theorem eq_of_fields {x y : Float} (sign : isNegative x = isNegative y)
    (exponent : exponentField x = exponentField y)
    (fraction : fractionField x = fractionField y) : x = y := by
  apply eq_of_toBits
  apply UInt64.toNat_inj.mp
  rw [toBits_eq_fields x, toBits_eq_fields y, sign, exponent, fraction]

/-- The sign that the sign bit of a number stands for. -/
def sign (x : Float) : UnpackedFloat.Sign :=
  if isNegative x then .negative else .positive

/-- The leading bits of a number as a natural, the one in front of a normal fraction included. -/
def significand (x : Float) : Nat :=
  if exponentField x = 0 then fractionField x else 2 ^ 52 + fractionField x

/-- How many places the significand is shifted to the left to count units. -/
def shift (x : Float) : Nat :=
  exponentField x - 1

theorem significand_lt (x : Float) : significand x < 2 ^ 53 := by
  have small := fractionField_lt x
  rw [significand]
  split <;> omega

/-- A significand below the range of normal ones is not shifted. -/
theorem shift_eq_zero_or_le_significand (x : Float) : shift x = 0 ∨ 2 ^ 52 ≤ significand x := by
  by_cases subnormal : exponentField x = 0
  · left
    rw [shift, subnormal]
  · right
    rw [significand, if_neg subnormal]
    omega

theorem units_eq (x : Float) : units x = significand x * 2 ^ shift x := by
  rw [units, significand, shift]
  cases field : exponentField x with
  | zero => simp
  | succ e => simp [Nat.shiftLeft_eq]

theorem unpackMantissa_bits (bits : UInt64) :
    (@UnpackedFloat.unpackMantissa Format.binary64 bits.toBitVec).toNat = bits.toNat % 2 ^ 52 := by
  simp [UnpackedFloat.unpackMantissa]

theorem unpackExponent_bits (bits : UInt64) :
    (@UnpackedFloat.unpackExponent Format.binary64 bits.toBitVec).toNat =
      bits.toNat / 2 ^ 52 % 2 ^ 11 := by
  simp [UnpackedFloat.unpackExponent, Nat.shiftRight_eq_div_pow]

theorem unpackMantissa_toNat (x : Float) :
    (@UnpackedFloat.unpackMantissa Format.binary64 x.toModel.toBits.toBitVec).toNat
      = fractionField x := by
  rw [fractionField_eq]
  exact unpackMantissa_bits x.toBits

theorem unpackExponent_toNat (x : Float) :
    (@UnpackedFloat.unpackExponent Format.binary64 x.toModel.toBits.toBitVec).toNat
      = exponentField x := by
  rw [exponentField_eq]
  exact unpackExponent_bits x.toBits

theorem unpackSign_eq (x : Float) :
    UnpackedFloat.Sign.ofBitVec
        (@UnpackedFloat.unpackSign Format.binary64 x.toModel.toBits.toBitVec)
      = sign x := by
  have bound := x.toBits.toNat_lt
  have cleared : @UnpackedFloat.unpackSign Format.binary64
      x.toModel.toBits.toBitVec = 0#1 ↔ ¬ isNegative x = true := by
    rw [isNegative_iff, ← BitVec.toNat_inj]
    simp [UnpackedFloat.unpackSign, Float.toBits, Nat.shiftRight_eq_div_pow] at bound ⊢
    omega
  by_cases negative : isNegative x = true
  · have set := fun zero => cleared.mp zero negative
    rw [UnpackedFloat.Sign.ofBitVec, if_neg set, sign, if_pos negative]
  · rw [UnpackedFloat.Sign.ofBitVec, if_pos (cleared.mpr negative), sign, if_neg negative]

/-- Which number the fields stand for: with the greatest exponent field an infinity or no
number, otherwise a zero or the significand moved to its place. -/
theorem unpack_number (x : Float) :
    x.toModel.unpack =
      if exponentField x = 2047 then
        if fractionField x = 0 then .infinity (sign x) else .notANumber
      else if empty : significand x = 0 then .zero (sign x)
      else .finite (sign x) (significand x) ((shift x : ℤ) - 1074) (Nat.pos_of_ne_zero empty) := by
  have mantissa := unpackMantissa_toNat x
  have exponent := unpackExponent_toNat x
  have greatest : @UnpackedFloat.unpackExponent Format.binary64
      x.toModel.toBits.toBitVec = -1#11 ↔ exponentField x = 2047 := by
    rw [← exponent, ← BitVec.toNat_inj]
    rfl
  have least : @UnpackedFloat.unpackExponent Format.binary64
      x.toModel.toBits.toBitVec = 0#11 ↔ exponentField x = 0 := by
    rw [← exponent, ← BitVec.toNat_inj]
    rfl
  have noFraction : @UnpackedFloat.unpackMantissa Format.binary64
      x.toModel.toBits.toBitVec = 0#52 ↔ fractionField x = 0 := by
    rw [← mantissa, ← BitVec.toNat_inj]
    rfl
  rw [Float.Model.unpack, UnpackedFloat.unpack]
  simp only [greatest, least, noFraction, unpackSign_eq, mantissa, exponent]
  by_cases top : exponentField x = 2047
  · simp [top]
  · by_cases bottom : exponentField x = 0
    · by_cases none : fractionField x = 0
      · simp [bottom, none, significand]
      · simp [bottom, none, significand, shift]
        rfl
    · have leading : (1#1 ++ @UnpackedFloat.unpackMantissa Format.binary64
          x.toModel.toBits.toBitVec).toNat = 2 ^ 52 + fractionField x := by
        rw [← mantissa, BitVec.toNat_append, ← Nat.shiftLeft_add_eq_or_of_lt (BitVec.isLt _)]
        rfl
      have bias : (Format.binary64.exponentBias : ℤ) = 1023 := rfl
      simp [top, bottom, significand, shift, leading, bias]
      omega

theorem isNaN_iff (x : Float) :
    x.isNaN = true ↔ exponentField x = 2047 ∧ fractionField x ≠ 0 := by
  rw [Float.isNaN, Float.Model.isNaN, unpack_number]
  by_cases top : exponentField x = 2047
  · by_cases none : fractionField x = 0 <;> simp [top, none, UnpackedFloat.isNaN]
  · by_cases empty : significand x = 0 <;> simp [top, empty, UnpackedFloat.isNaN]

theorem isInf_iff (x : Float) :
    x.isInf = true ↔ exponentField x = 2047 ∧ fractionField x = 0 := by
  rw [Float.isInf, Float.Model.isInf, unpack_number]
  by_cases top : exponentField x = 2047
  · by_cases none : fractionField x = 0 <;> simp [top, none, UnpackedFloat.isInf]
  · by_cases empty : significand x = 0 <;> simp [top, empty, UnpackedFloat.isInf]

theorem isFinite_iff (x : Float) : x.isFinite = true ↔ exponentField x < 2047 := by
  have bound := exponentField_lt x
  rw [Float.isFinite, Float.Model.isFinite, unpack_number]
  by_cases top : exponentField x = 2047
  · by_cases none : fractionField x = 0 <;> simp [top, none, UnpackedFloat.isFinite]
  · have below : exponentField x < 2047 := by omega
    by_cases empty : significand x = 0 <;> simp [top, below, empty, UnpackedFloat.isFinite]

theorem isNaN_or_isInf {x : Float} (exceptional : x.isFinite = false) :
    x.isNaN = true ∨ x.isInf = true := by
  have bound := exponentField_lt x
  have noFinite := mt (isFinite_iff x).mpr (Bool.not_eq_true _ ▸ exceptional)
  rw [isNaN_iff, isInf_iff]
  by_cases noFraction : fractionField x = 0
  · exact .inr ⟨by omega, noFraction⟩
  · exact .inl ⟨by omega, noFraction⟩

end DomainColoring.Binary64
