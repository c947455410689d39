import DomainColoring.Proofs.Binary64.Packing

/-!
# Rounding to the nearest number

Rounding a quotient depends on the quotient only, not on its terms, and a count of units that
belongs to a finite number is rounded to this number. Counts far below and far above all of these
become zero and infinity. Of the others only this is needed, that two or more is not rounded below
two.
-/

namespace DomainColoring

namespace Rounding

/-- A quotient is rounded in the same way after its terms were multiplied by the same number. -/
theorem halfEven_mul_right {num den factor : Nat} (positive : 0 < factor) :
    halfEven (num * factor) (den * factor) = halfEven num den := by
  have quotient : num * factor / (den * factor) = num / den := Nat.mul_div_mul_right _ _ positive
  have rest : num * factor % (den * factor) = num % den * factor := Nat.mul_mod_mul_right _ _ _
  have below : 2 * (num % den * factor) < den * factor ↔ 2 * (num % den) < den := by
    rw [← Nat.mul_assoc]
    exact Nat.mul_lt_mul_right positive
  have above : den * factor < 2 * (num % den * factor) ↔ den < 2 * (num % den) := by
    rw [← Nat.mul_assoc]
    exact Nat.mul_lt_mul_right positive
  simp only [halfEven, quotient, rest, below, above]

theorem div_le_halfEven (num den : Nat) : num / den ≤ halfEven num den := by
  unfold halfEven
  grind

end Rounding

namespace Binary64

/-- The number of binary places behind the point that a unit has. -/
def unitPlaces : Nat := 1074

/-- The power stands behind a name, or it would be worked out wherever terms are compared. -/
theorem one_eq : one = 2 ^ unitPlaces := by
  delta one
  generalize same : (1074 : Nat) = places
  rw [unitPlaces, same, Nat.pow_eq]

theorem one_pos : 0 < one := by
  rw [one_eq]
  exact Nat.two_pow_pos unitPlaces

theorem nearestPattern_le (num den : Nat) : nearestPattern num den ≤ infinityPattern :=
  Nat.min_le_left _ _

theorem nearestPattern_mul_right {num den factor : Nat} (positive : 0 < factor) :
    nearestPattern (num * factor) (den * factor) = nearestPattern num den := by
  have quotient : num * factor / (den * factor) = num / den := Nat.mul_div_mul_right _ _ positive
  have shifted : ∀ places, (den * factor) <<< places = den <<< places * factor := by
    intro places
    rw [Nat.shiftLeft_eq, Nat.shiftLeft_eq, Nat.mul_right_comm]
  simp only [nearestPattern, quotient, shifted, Rounding.halfEven_mul_right positive]

/-- The part of the bit pattern of a number that is not its sign. -/
def magnitude (x : Float) : Nat :=
  exponentField x * 2 ^ 52 + fractionField x

theorem magnitude_lt {x : Float} (finite : x.isFinite = true) :
    magnitude x < infinityPattern := by
  have exponent := (isFinite_iff x).mp finite
  have fraction := fractionField_lt x
  change exponentField x * 2 ^ 52 + fractionField x < 2047 * 2 ^ 52
  omega

/-- The leading bits of a count of units and the place of the last one make up the pattern. -/
theorem magnitude_eq (x : Float) :
    magnitude x = ((units x).log2 - 52) * 2 ^ 52 + significand x ∧
      (units x).log2 - 52 = shift x := by
  have dropped : (units x).log2 - 52 = shift x := by
    rw [units_eq]
    by_cases subnormal : exponentField x = 0
    · have few : (significand x * 2 ^ shift x).log2 ≤ 52 := by
        rw [significand, if_pos subnormal, shift, subnormal, Nat.pow_zero, Nat.mul_one]
        by_cases none : fractionField x = 0
        · rw [none]
          decide
        · have bound := (Nat.log2_lt none).mpr (fractionField_lt x)
          omega
      have unshifted : shift x = 0 := by rw [shift, subnormal]
      omega
    · have normal : 2 ^ 52 ≤ significand x := by
        rw [significand, if_neg subnormal]
        omega
      have someUnits : significand x * 2 ^ shift x ≠ 0 := by positivity
      have least : 52 + shift x ≤ (significand x * 2 ^ shift x).log2 := by
        rw [Nat.le_log2 someUnits, Nat.pow_add]
        exact Nat.mul_le_mul_right _ normal
      have greatest : (significand x * 2 ^ shift x).log2 < 53 + shift x := by
        rw [Nat.log2_lt someUnits, Nat.pow_add]
        exact Nat.mul_lt_mul_of_pos_right (significand_lt x) (Nat.two_pow_pos _)
      omega
  refine ⟨?_, dropped⟩
  rw [dropped, magnitude, shift, significand]
  split
  · next subnormal =>
    rw [subnormal]
  · omega

theorem nearestPattern_units {x : Float} (finite : x.isFinite = true) :
    nearestPattern (units x) 1 = magnitude x := by
  obtain ⟨pattern, dropped⟩ := magnitude_eq x
  have below := magnitude_lt finite
  have kept : Rounding.halfEven (units x) (1 <<< shift x) = significand x := by
    have place : 1 <<< shift x = 2 ^ shift x := Nat.one_shiftLeft _
    have positive : 0 < 2 ^ shift x := Nat.two_pow_pos _
    rw [place, units_eq, Rounding.halfEven_of_dvd positive (Nat.dvd_mul_left _ _),
      Nat.mul_div_cancel _ positive]
  rw [nearestPattern, Nat.div_one, dropped, kept, Nat.shiftLeft_eq, ← dropped, ← pattern]
  exact Nat.min_eq_right (Nat.le_of_lt below)

theorem toBits_ofUnits (num den : Nat) :
    (ofUnits num den).toBits.toNat = nearestPattern num den := by
  have limit := nearestPattern_le num den
  have word : infinityPattern < UInt64.size := by decide
  have read : (UInt64.ofNat (nearestPattern num den)).toNat = nearestPattern num den :=
    UInt64.toNat_ofNat_of_lt' (Nat.lt_of_le_of_lt limit word)
  rw [ofUnits, toBits_ofBits (by rw [read]; exact limit), read]

/-- A count of units is rounded to a number without sign. -/
theorem isNegative_ofUnits (num den : Nat) : isNegative (ofUnits num den) = false := by
  have limit := nearestPattern_le num den
  rw [← Bool.not_eq_true, isNegative_iff, toBits_ofUnits]
  have below : infinityPattern < 2 ^ 63 := by decide
  omega

/-- Finite numbers with the same number of units have the same magnitude. -/
theorem fields_of_units {x y : Float} (xFinite : x.isFinite = true) (yFinite : y.isFinite = true)
    (same : units x = units y) :
    exponentField x = exponentField y ∧ fractionField x = fractionField y := by
  have magnitudes : magnitude x = magnitude y := by
    rw [← nearestPattern_units xFinite, ← nearestPattern_units yFinite, same]
  have xFraction := fractionField_lt x
  have yFraction := fractionField_lt y
  rw [magnitude, magnitude] at magnitudes
  omega

theorem units_congr {x y : Float} (exponent : exponentField x = exponentField y)
    (fraction : fractionField x = fractionField y) : units x = units y := by
  rw [units_eq, units_eq, significand, significand, shift, shift, exponent, fraction]

theorem isNaN_of_isFinite {x : Float} (finite : x.isFinite = true) : x.isNaN = false := by
  have exponent := (isFinite_iff x).mp finite
  rw [← Bool.not_eq_true, isNaN_iff]
  omega

theorem isInf_eq_false_of_isFinite {x : Float} (finite : x.isFinite = true) :
    x.isInf = false := by
  have exponent := (isFinite_iff x).mp finite
  rw [← Bool.not_eq_true, isInf_iff]
  omega

/-- A number is its magnitude with its sign. -/
theorem withSign_isNegative {x y : Float} (xFinite : x.isFinite = true)
    (yFinite : y.isFinite = true) (same : units y = units x) (unsigned : isNegative y = false) :
    withSign (isNegative x) y = x := by
  obtain ⟨exponent, fraction⟩ := fields_of_units yFinite xFinite same
  cases negative : isNegative x with
  | false => exact eq_of_fields (unsigned.trans negative.symm) exponent fraction
  | true =>
    obtain ⟨turnedExponent, turnedFraction, turned⟩ := fields_neg (isNaN_of_isFinite yFinite)
    apply eq_of_fields
    · rw [withSign, if_pos rfl, turned, unsigned, negative]
      rfl
    · exact turnedExponent.trans exponent
    · exact turnedFraction.trans fraction

/-- Rounding the units of a finite number gives its magnitude back. -/
theorem units_ofUnits {x : Float} (finite : x.isFinite = true) :
    (ofUnits (units x) 1).isFinite = true ∧ units (ofUnits (units x) 1) = units x := by
  have bits : (ofUnits (units x) 1).toBits.toNat =
      signShare .positive + exponentField x * 2 ^ 52 + fractionField x := by
    rw [toBits_ofUnits, nearestPattern_units finite, magnitude, signShare, Nat.zero_add]
  obtain ⟨exponent, fraction, -⟩ :=
    fields_of_toBits (exponentField_lt x) (fractionField_lt x) bits
  constructor
  · rw [isFinite_iff, exponent]
    exact (isFinite_iff x).mp finite
  · exact units_congr exponent fraction

/-- The magnitude of a number. -/
def absolute (x : Float) : Float :=
  ofUnits (units x) 1

theorem withSign_absolute {x : Float} (finite : x.isFinite = true) :
    withSign (isNegative x) (absolute x) = x := by
  obtain ⟨absoluteFinite, same⟩ := units_ofUnits finite
  exact withSign_isNegative finite absoluteFinite same (isNegative_ofUnits _ _)

theorem absolute_isFinite {x : Float} (finite : x.isFinite = true) :
    (absolute x).isFinite = true :=
  (units_ofUnits finite).1

/-- A quotient of less than half a unit is rounded to zero. -/
theorem nearestPattern_eq_zero {num den : Nat} (small : 2 * num < den) :
    nearestPattern num den = 0 := by
  have quotient : num / den = 0 := Nat.div_eq_of_lt (by omega)
  have rest : num % den = num := Nat.mod_eq_of_lt (by omega)
  have half : Rounding.halfEven num (den <<< 0) = 0 := by
    simp [Rounding.halfEven, quotient, rest, small]
  rw [nearestPattern, quotient, show (Nat.log2 0 - 52) = 0 from by decide, half]
  simp

/-- A count of units with too many bits is rounded to infinity. -/
theorem nearestPattern_eq_infinity {num bits : Nat} (many : 2099 ≤ bits)
    (great : 2 ^ bits ≤ num) : nearestPattern num 1 = infinityPattern := by
  have someUnits : num ≠ 0 := by
    have positive : 0 < 2 ^ bits := Nat.two_pow_pos _
    omega
  have length : bits ≤ num.log2 := (Nat.le_log2 someUnits).mpr great
  have dropped : 2047 * 2 ^ 52 ≤ (num.log2 - 52) <<< 52 := by
    rw [Nat.shiftLeft_eq]
    omega
  rw [nearestPattern, Nat.div_one]
  exact Nat.min_eq_left (Nat.le_add_right_of_le dropped)

/-- Units that make up two or more are rounded to two or more, and be it to infinity. -/
theorem ofUnits_great {num bits : Nat} (many : 1075 ≤ bits) (great : 2 ^ bits ≤ num) :
    (ofUnits num 1).isNaN = false ∧ 1024 ≤ exponentField (ofUnits num 1) := by
  have someUnits : num ≠ 0 := by
    have positive : 0 < 2 ^ bits := Nat.two_pow_pos _
    omega
  have length : bits ≤ num.log2 := (Nat.le_log2 someUnits).mpr great
  have leading : 2 ^ 52 ≤ num / 2 ^ (num.log2 - 52) := by
    rw [Nat.le_div_iff_mul_le (Nat.two_pow_pos _), ← Nat.pow_add,
      show 52 + (num.log2 - 52) = num.log2 by omega]
    exact Nat.log2_self_le someUnits
  have kept : 2 ^ 52 ≤ Rounding.halfEven num (1 <<< (num.log2 - 52)) := by
    rw [Nat.one_shiftLeft]
    exact leading.trans (Rounding.div_le_halfEven _ _)
  have pattern : 1024 * 2 ^ 52 ≤ nearestPattern num 1 := by
    rw [nearestPattern, Nat.div_one]
    refine Nat.le_min.mpr ⟨by decide, ?_⟩
    rw [Nat.shiftLeft_eq]
    omega
  have limit : nearestPattern num 1 ≤ 2047 * 2 ^ 52 := nearestPattern_le num 1
  rw [← Bool.not_eq_true, isNaN_iff, exponentField_eq, fractionField_eq, toBits_ofUnits]
  omega

theorem ofUnits_eq_zero {num den : Nat} (small : 2 * num < den) : ofUnits num den = 0.0 := by
  rw [ofUnits, nearestPattern_eq_zero small]
  decide

end Binary64
end DomainColoring
