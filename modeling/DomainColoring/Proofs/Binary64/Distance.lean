import DomainColoring.Proofs.Binary64.Exceptions
import DomainColoring.Proofs.Binary64.Order

/-!
# Distances of binary64 numbers

The difference of two finite numbers is not rounded below any number that it reaches: what a
comparison with a bound finds to be closer than the bound is closer before rounding, too. By how
much a difference may be rounded up, and to which of two neighbours, is not said here.
-/

namespace DomainColoring.Binary64

open Float.Model

variable {x y bound : Float}

/-! ## Magnitudes -/

theorem isNaN_abs (x : Float) : x.abs.isNaN = x.isNaN := by
  refine (isNaN_pack x.toModel.unpack.abs).trans ?_
  change _ = x.toModel.unpack.isNaN
  cases x.toModel.unpack <;> rfl

/-- The absolute value keeps the magnitude and has no sign. -/
theorem fields_abs (number : x.isNaN = false) :
    exponentField x.abs = exponentField x ∧ fractionField x.abs = fractionField x ∧
      isNegative x.abs = false := by
  have unsigned : x.toModel.unpack.abs = unpackedWith .positive x := by
    rw [unpack_eq_unpackedWith number, unpackedWith, unpackedWith]
    split
    · rfl
    · split <;> rfl
  have bits : x.abs.toBits.toNat =
      signShare .positive + exponentField x * 2 ^ 52 + fractionField x := by
    have packed : x.abs.toModel = Float.Model.pack x.toModel.unpack.abs := rfl
    rw [Float.toBits, packed, unsigned, pack_unpackedWith _ number]
  obtain ⟨exponent, fraction, negative⟩ :=
    fields_of_toBits (exponentField_lt x) (fractionField_lt x) bits
  refine ⟨exponent, fraction, ?_⟩
  simpa using negative

theorem signedUnits_abs (number : x.isNaN = false) : signedUnits x.abs = units x := by
  obtain ⟨exponent, fraction, unsigned⟩ := fields_abs number
  rw [signedUnits, unsigned, if_neg Bool.false_ne_true, units_congr exponent fraction]

theorem natAbs_signedUnits (x : Float) : (signedUnits x).natAbs = units x := by
  rw [signedUnits]
  split <;> simp

theorem units_le_infiniteUnits (number : x.isNaN = false) : units x ≤ infiniteUnits := by
  rcases unpack_cases number with ⟨-, infinite⟩ | ⟨-, zero⟩ | ⟨-, -, -, below⟩
  · exact infinite.le
  · rw [zero]
    exact Nat.zero_le _
  · exact below.le

theorem isFinite_of_units_lt (number : x.isNaN = false) (below : units x < infiniteUnits) :
    x.isFinite = true := by
  rw [Float.isFinite, Float.Model.isFinite]
  rcases unpack_cases number with ⟨-, infinite⟩ | ⟨zero, -⟩ | ⟨_, mantissa, -, -⟩
  · exact absurd infinite below.ne
  · rw [zero]
    rfl
  · rw [mantissa]
    rfl

/-- A number closer to zero than a bound without sign is a number with fewer units. -/
theorem units_lt_of_abs_lt (unsigned : isNegative bound = false) (close : x.abs < bound) :
    x.isNaN = false ∧ units x < units bound := by
  obtain ⟨absNumber, boundNumber⟩ := not_isNaN_of_lt close
  have number : x.isNaN = false := (isNaN_abs x).symm.trans absNumber
  rw [lt_iff_signedUnits absNumber boundNumber, signedUnits_abs number, signedUnits, unsigned,
    if_neg Bool.false_ne_true] at close
  exact ⟨number, Int.ofNat_lt.mp close⟩

theorem isFinite_of_abs_lt (unsigned : isNegative bound = false) (close : x.abs < bound) :
    x.isFinite = true := by
  obtain ⟨number, less⟩ := units_lt_of_abs_lt unsigned close
  have limit := units_le_infiniteUnits (not_isNaN_of_lt close).2
  exact isFinite_of_units_lt number (less.trans_le limit)

/-! ## Rounding does not go below a number -/

/-- An unpacked number with no fewer units than `count`, in a form that is packed without loss. -/
inductive Reaches : UnpackedFloat → ℕ → Prop where
  | normal {s mantissa} {place : ℕ} {positive count} (full : mantissa.log2 = 52)
      (reached : count ≤ mantissa * 2 ^ place) :
      Reaches (.finite s mantissa ((place : ℤ) - 1074) positive) count
  | subnormal {s mantissa positive count} (few : mantissa < 2 ^ 52) (reached : count ≤ mantissa) :
      Reaches (.finite s mantissa (-1074) positive) count

theorem Reaches.mono {u : UnpackedFloat} {fewer count : ℕ} (reaches : Reaches u count)
    (less : fewer ≤ count) : Reaches u fewer := by
  cases reaches with
  | normal full reached => exact .normal full (less.trans reached)
  | subnormal few reached => exact .subnormal few (less.trans reached)

/-- The units of a number that is unpacked with a mantissa. -/
theorem units_of_unpack {s : UnpackedFloat.Sign} {mantissa place : ℕ} {positive : 0 < mantissa}
    (unpacked : x.toModel.unpack = .finite s mantissa ((place : ℤ) - 1074) positive) :
    units x = mantissa * 2 ^ place := by
  rw [unpack_number] at unpacked
  split at unpacked
  · split at unpacked <;> cases unpacked
  · split at unpacked
    · cases unpacked
    · rw [UnpackedFloat.finite.injEq] at unpacked
      obtain ⟨-, mantissaEq, placeEq⟩ := unpacked
      have same : shift x = place := by omega
      rw [units_eq, mantissaEq, same]

/-- A mantissa without a leading bit, at the place of the units, is packed as a fraction. -/
theorem units_pack_subnormal {s : UnpackedFloat.Sign} {mantissa : ℕ} {positive : 0 < mantissa}
    (few : mantissa < 2 ^ 52) :
    units (Float.ofModel (Float.Model.pack (.finite s mantissa (-1074) positive))) = mantissa := by
  let y := Float.ofModel (Float.Model.pack (.finite s mantissa (-1074) positive))
  have bits : y.toBits.toNat =
      (UnpackedFloat.pack Format.binary64 (.finite s mantissa (-1074) positive)).toNat := rfl
  have subnormal : ¬ mantissa.log2 + 1 = Format.binary64.mantissaBits := by
    have short : mantissa.log2 < 52 := (Nat.log2_lt positive.ne').mpr few
    change ¬ mantissa.log2 + 1 = 53
    omega
  simp only [UnpackedFloat.pack, biasedExponent_eq] at bits
  rw [if_neg (by decide), if_neg subnormal, packComponents_toNat, BitVec.toNat_ofNat,
    BitVec.toNat_ofNat, Nat.mod_eq_of_lt few] at bits
  obtain ⟨exponent, fraction, -⟩ := fields_of_toBits (by decide) few bits
  change units y = mantissa
  rw [units_eq, significand, shift, exponent, fraction]
  simp

/-- A mantissa at a place beyond the finite numbers is packed as an infinity. -/
theorem units_pack_overflow {s : UnpackedFloat.Sign} {mantissa place : ℕ}
    {positive : 0 < mantissa} (great : 2046 ≤ place) :
    units (Float.ofModel (Float.Model.pack (.finite s mantissa ((place : ℤ) - 1074) positive))) =
      infiniteUnits := by
  obtain ⟨number, finite⟩ := pack_finite s mantissa ((place : ℤ) - 1074) positive
  rcases (units_le_infiniteUnits number).eq_or_lt with infinite | below
  · exact infinite
  · have small := finite.mp (isFinite_of_units_lt number below)
    omega

theorem units_le_pack (number : bound.isNaN = false) {u : UnpackedFloat}
    (reaches : Reaches u (units bound)) :
    units bound ≤ units (Float.ofModel (Float.Model.pack u)) := by
  cases reaches with
  | @normal s mantissa place positive _ full reached =>
    by_cases great : 2046 ≤ place
    · rw [units_pack_overflow great]
      exact units_le_infiniteUnits number
    · have unpacked : (Float.Model.pack (.finite s mantissa ((place : ℤ) - 1074) positive)).unpack =
          .finite s mantissa ((place : ℤ) - 1074) positive :=
        unpack_pack_finite full (by omega) (by omega)
      exact reached.trans (units_of_unpack unpacked).ge
  | subnormal few reached => exact reached.trans (units_pack_subnormal few).ge

/-- The 54th bit is the first of 53 at the next place. -/
theorem carry (place : ℕ) : 2 ^ 53 * 2 ^ place = 2 ^ 52 * 2 ^ (place + 1) := by
  rw [← pow_add, ← pow_add]
  congr 1
  omega

/-- A count that is cut off behind its first 53 bits, or behind more of them, is not taken below a
number that it reaches. -/
theorem units_le_truncated {count place : ℕ} (leading : 2 ^ 52 ≤ count / 2 ^ place)
    (reached : units bound ≤ count) : units bound ≤ count / 2 ^ place * 2 ^ place := by
  rcases Nat.lt_or_ge (shift bound) place with lower | higher
  · have small := significand_lt bound
    rw [units_eq]
    calc
      significand bound * 2 ^ shift bound ≤ 2 ^ 53 * 2 ^ shift bound :=
        Nat.mul_le_mul_right _ small.le
      _ = 2 ^ 52 * 2 ^ (shift bound + 1) := carry _
      _ ≤ count / 2 ^ place * 2 ^ place :=
        Nat.mul_le_mul leading (Nat.pow_le_pow_right (by decide) lower)
  · have whole : 2 ^ place ∣ units bound := by
      rw [units_eq]
      exact (pow_dvd_pow 2 higher).mul_left _
    calc
      units bound = units bound / 2 ^ place * 2 ^ place := (Nat.div_mul_cancel whole).symm
      _ ≤ count / 2 ^ place * 2 ^ place := Nat.mul_le_mul_right _ (Nat.div_le_div_right reached)

theorem le_roundedMantissa (em : UnpackedFloat.ExtendedMantissa) :
    em.mantissa ≤ em.roundedMantissa := by
  rw [UnpackedFloat.ExtendedMantissa.roundedMantissa]
  cases em.accuracy with
  | exact => exact le_rfl
  | inexact relation =>
    cases relation with
    | lt => exact le_rfl
    | eq => exact Nat.le_add_right _ _
    | gt => exact Nat.le_succ _

/-- A mantissa that was rounded up to one bit more is moved by one place, and loses nothing. -/
theorem shiftToTargetExponent_carry (place : ℕ) :
    UnpackedFloat.shiftToTargetExponent Format.binary64 (2 ^ 53) ((place : ℤ) - 1074) .exact =
      (⟨2 ^ 52, false, false⟩, ((place + 1 : ℕ) : ℤ) - 1074) := by
  have target : (Format.binary64.targetExponent (totalExponent (2 ^ 53) ((place : ℤ) - 1074)) -
      ((place : ℤ) - 1074)).toNat = 1 := by
    rw [targetExponent_eq, totalExponent, Nat.log2_two_pow]
    omega
  simp only [UnpackedFloat.shiftToTargetExponent, UnpackedFloat.shiftToExponent, target]
  rw [Prod.mk.injEq]
  exact ⟨rfl, by omega⟩

/-- A mantissa with 53 bits or more is cut off behind the first 53. -/
theorem shiftToTargetExponent_long {mantissa more : ℕ} (place : ℕ)
    (long : mantissa.log2 = 52 + more) :
    ∃ em : UnpackedFloat.ExtendedMantissa, em.mantissa = mantissa / 2 ^ more ∧
      UnpackedFloat.shiftToTargetExponent Format.binary64 mantissa ((place : ℤ) - 1074) .exact =
        (em, ((place + more : ℕ) : ℤ) - 1074) := by
  have places : (Format.binary64.targetExponent
      (totalExponent mantissa ((place : ℤ) - 1074)) - ((place : ℤ) - 1074)).toNat = more := by
    rw [targetExponent_eq, totalExponent, long]
    omega
  refine ⟨UnpackedFloat.ExtendedMantissa.ofMantissaAndAccuracy mantissa .exact >>> more, ?_, ?_⟩
  · rw [shiftRight_mantissa, ofMantissaAndAccuracy_mantissa]
  · simp only [UnpackedFloat.shiftToTargetExponent, UnpackedFloat.shiftToExponent, places]
    rw [Prod.mk.injEq]
    exact ⟨rfl, by omega⟩

/-- Rounding what was cut off to 53 bits does not make it smaller. -/
theorem reaches_of_shifted (s : UnpackedFloat.Sign) {mantissa place : ℕ} {exponent : ℤ}
    {em : UnpackedFloat.ExtendedMantissa}
    (shifted : UnpackedFloat.shiftToTargetExponent Format.binary64 mantissa exponent .exact =
      (em, (place : ℤ) - 1074))
    (leading : 2 ^ 52 ≤ em.mantissa) (few : em.mantissa < 2 ^ 53) :
    Reaches (UnpackedFloat.roundWithAccuracy Format.binary64 s mantissa exponent .exact)
      (em.mantissa * 2 ^ place) := by
  have atLeast := le_roundedMantissa em
  have atMost := roundedMantissa_le em
  simp only [UnpackedFloat.roundWithAccuracy, shifted]
  rcases Nat.lt_or_ge em.roundedMantissa (2 ^ 53) with unchanged | grown
  · have bits : em.roundedMantissa.log2 = 52 := by
      rw [Nat.log2_eq_iff (by omega)]
      exact ⟨leading.trans atLeast, unchanged⟩
    have room : max (totalExponent em.roundedMantissa ((place : ℤ) - 1074) - 53) (-1074) ≤
        (place : ℤ) - 1074 := by
      rw [totalExponent, bits]
      omega
    simp only [shiftToTargetExponent_exact room]
    rw [dif_neg (by omega)]
    exact .normal bits (Nat.mul_le_mul_right _ atLeast)
  · have full : em.roundedMantissa = 2 ^ 53 := by omega
    simp only [full, shiftToTargetExponent_carry]
    rw [dif_neg (by decide)]
    refine .normal Nat.log2_two_pow ?_
    calc
      em.mantissa * 2 ^ place ≤ 2 ^ 53 * 2 ^ place := Nat.mul_le_mul_right _ few.le
      _ = 2 ^ 52 * 2 ^ (place + 1) := carry _

theorem reaches_roundWithAccuracy (s : UnpackedFloat.Sign) {mantissa place more : ℕ}
    (long : mantissa.log2 = 52 + more) (reached : units bound ≤ mantissa * 2 ^ place) :
    Reaches (UnpackedFloat.roundWithAccuracy Format.binary64 s mantissa ((place : ℤ) - 1074) .exact)
      (units bound) := by
  have nonzero : mantissa ≠ 0 := by
    rintro rfl
    rw [Nat.log2_zero] at long
    omega
  obtain ⟨em, cut, shifted⟩ := shiftToTargetExponent_long place long
  have leading : 2 ^ 52 ≤ em.mantissa := by
    rw [cut, Nat.le_div_iff_mul_le (Nat.two_pow_pos _), ← Nat.pow_add, ← long]
    exact Nat.log2_self_le nonzero
  have few : em.mantissa < 2 ^ 53 := by
    rw [cut, Nat.div_lt_iff_lt_mul (Nat.two_pow_pos _), ← Nat.pow_add]
    have below := Nat.lt_log2_self (n := mantissa)
    rwa [long, Nat.add_right_comm] at below
  have quotient : mantissa * 2 ^ place / 2 ^ (place + more) = em.mantissa := by
    rw [cut, Nat.pow_add, Nat.mul_comm, Nat.mul_div_mul_left _ _ (Nat.two_pow_pos _)]
  have kept : units bound ≤ em.mantissa * 2 ^ (place + more) := by
    rw [← quotient] at leading ⊢
    exact units_le_truncated leading reached
  exact (reaches_of_shifted s shifted leading few).mono kept

theorem log2_shiftLeft {n : ℕ} (nonzero : n ≠ 0) (places : ℕ) :
    (n <<< places).log2 = n.log2 + places := by
  have shifted : n * 2 ^ places ≠ 0 := by positivity
  rw [Nat.shiftLeft_eq, Nat.log2_eq_iff shifted]
  constructor
  · rw [Nat.pow_add]
    exact Nat.mul_le_mul_right _ (Nat.log2_self_le nonzero)
  · rw [Nat.add_right_comm, Nat.pow_add]
    exact Nat.mul_lt_mul_of_pos_right Nat.lt_log2_self (Nat.two_pow_pos _)

/-- Rounding does not go below a number. -/
theorem reaches_round (s : UnpackedFloat.Sign) {mantissa place : ℕ} (nonzero : mantissa ≠ 0)
    (reached : units bound ≤ mantissa * 2 ^ place) :
    Reaches (UnpackedFloat.round Format.binary64 s mantissa ((place : ℤ) - 1074))
      (units bound) := by
  let target := mantissa.log2 + place - 52
  have places : ((place : ℤ) - 1074 - Format.binary64.targetExponent
      (totalExponent mantissa ((place : ℤ) - 1074))).toNat = place - target := by
    rw [targetExponent_eq, totalExponent]
    omega
  have exponent : (place : ℤ) - 1074 - (place - target : ℕ) = (min place target : ℕ) - 1074 := by
    omega
  have moved : mantissa * 2 ^ place = mantissa <<< (place - target) * 2 ^ min place target := by
    rw [Nat.shiftLeft_eq, Nat.mul_assoc, ← Nat.pow_add]
    congr 2
    omega
  have bits := log2_shiftLeft nonzero (place - target)
  rw [moved] at reached
  simp only [UnpackedFloat.round, UnpackedFloat.decreaseExponent, places, exponent]
  rcases Nat.lt_or_ge (mantissa <<< (place - target)).log2 52 with short | long
  · have lowest : min place target = 0 := by omega
    have positive : 0 < mantissa <<< (place - target) := by
      rw [Nat.shiftLeft_eq]
      positivity
    have few : mantissa <<< (place - target) < 2 ^ 52 := (Nat.log2_lt positive.ne').mp short
    have lowestExponent : ((min place target : ℕ) : ℤ) - 1074 = -1074 := by omega
    have room : max (totalExponent (mantissa <<< (place - target)) (-1074) - 53) (-1074) ≤
        -1074 := by
      rw [totalExponent]
      omega
    rw [lowest, Nat.pow_zero, Nat.mul_one] at reached
    rw [lowestExponent, roundWithAccuracy_exact positive room]
    exact .subnormal few reached
  · obtain ⟨more, long⟩ := Nat.exists_eq_add_of_le long
    exact reaches_roundWithAccuracy s long reached

/-- The same for a number that may be zero or have a sign. -/
theorem units_le_pack_normalize (number : bound.isNaN = false) {total : ℤ} {place : ℕ}
    (zeroSign : UnpackedFloat.Sign) (reached : units bound ≤ total.natAbs * 2 ^ place) :
    units bound ≤ units (Float.ofModel (Float.Model.pack
      (UnpackedFloat.normalize Format.binary64 total ((place : ℤ) - 1074) zeroSign))) := by
  rcases Int.lt_trichotomy total 0 with negative | rfl | positive
  · have compared : compare total 0 = .lt := compare_lt_iff_lt.mpr negative
    have magnitude : (-total).toNat = total.natAbs := by omega
    simp only [UnpackedFloat.normalize, compared, magnitude]
    exact units_le_pack number (reaches_round _ (by omega) reached)
  · rw [Int.natAbs_zero, Nat.zero_mul] at reached
    exact reached.trans (Nat.zero_le _)
  · have compared : compare total 0 = .gt := compare_gt_iff_gt.mpr positive
    have magnitude : total.toNat = total.natAbs := by omega
    simp only [UnpackedFloat.normalize, compared, magnitude]
    exact units_le_pack number (reaches_round _ (by omega) reached)

/-! ## Differences -/

theorem signedUnits_eq (x : Float) : signedUnits x = (sign x).apply (units x) := by
  rw [signedUnits, sign]
  split <;> rfl

/-- Two numbers with mantissas are subtracted as counts of the smaller one of their places. -/
theorem signedUnits_sub (x y : Float) :
    signedUnits x - signedUnits y =
      ((sign x).apply ((significand x <<< (shift x - min (shift x) (shift y)) : ℕ) : ℤ) -
        (sign y).apply ((significand y <<< (shift y - min (shift x) (shift y)) : ℕ) : ℤ)) *
          (2 ^ min (shift x) (shift y) : ℕ) := by
  have moved : ∀ (z : Float) {place : ℕ}, place ≤ shift z →
      (sign z).apply ((significand z <<< (shift z - place) : ℕ) : ℤ) * (2 ^ place : ℕ) =
        signedUnits z := by
    intro z place below
    have counted : units z = significand z <<< (shift z - place) * 2 ^ place := by
      rw [units_eq, Nat.shiftLeft_eq, Nat.mul_assoc, ← Nat.pow_add, Nat.sub_add_cancel below]
    rw [signedUnits_eq, counted]
    cases sign z with
    | positive => exact (Nat.cast_mul _ _).symm
    | negative =>
      change -_ * _ = -_
      rw [Nat.cast_mul, Int.neg_mul]
  rw [Int.sub_mul, moved x (Nat.min_le_left _ _), moved y (Nat.min_le_right _ _)]

theorem units_of_unpack_zero {s : UnpackedFloat.Sign} (zero : x.toModel.unpack = .zero s) :
    units x = 0 := by
  rw [unpack_number] at zero
  split at zero
  · split at zero <;> cases zero
  · split at zero
    · next empty => exact (units_eq_zero_iff x).mpr empty
    · cases zero

/-- A difference that has the magnitude of a number has its units. -/
theorem units_sub_of_unpackedWith {z : Float} (number : z.isNaN = false)
    (difference : ∃ s, UnpackedFloat.sub Format.binary64 x.toModel.unpack y.toModel.unpack =
      unpackedWith s z) : units (x - y) = units z := by
  obtain ⟨s, difference⟩ := difference
  have bits : (x - y).toBits.toNat =
      signShare s + exponentField z * 2 ^ 52 + fractionField z := by
    rw [← pack_unpackedWith s number, ← difference]
    rfl
  obtain ⟨exponent, fraction, -⟩ :=
    fields_of_toBits (exponentField_lt z) (fractionField_lt z) bits
  exact units_congr exponent fraction

theorem unpackedWith_of_isFinite (s : UnpackedFloat.Sign) (finite : x.isFinite = true) :
    unpackedWith s x =
      if empty : significand x = 0 then .zero s
      else .finite s (significand x) ((shift x : ℤ) - 1074) (Nat.pos_of_ne_zero empty) := by
  have exponent := (isFinite_iff x).mp finite
  rw [unpackedWith, if_neg (by omega)]

/-- Taking a zero away changes no more than the sign of a zero. -/
theorem units_sub_zero {s : UnpackedFloat.Sign} (finite : x.isFinite = true)
    (zero : y.toModel.unpack = .zero s) : units (x - y) = units x := by
  have number := isNaN_of_isFinite finite
  have unpacked := unpack_eq_unpackedWith number
  apply units_sub_of_unpackedWith number
  simp only [unpackedWith_of_isFinite _ finite] at unpacked ⊢
  rw [unpacked, zero]
  split
  · cases sign x <;> cases s <;> exact ⟨_, rfl⟩
  · exact ⟨sign x, rfl⟩

/-- Taking a number away from a zero turns its sign. -/
theorem units_zero_sub {s : UnpackedFloat.Sign} (zero : x.toModel.unpack = .zero s)
    (finite : y.isFinite = true) : units (x - y) = units y := by
  have number := isNaN_of_isFinite finite
  have unpacked := unpack_eq_unpackedWith number
  apply units_sub_of_unpackedWith number
  simp only [unpackedWith_of_isFinite _ finite] at unpacked ⊢
  rw [unpacked, zero]
  split
  · cases sign y <;> cases s <;> exact ⟨_, rfl⟩
  · exact ⟨-sign y, rfl⟩

/-- The difference of two finite numbers is not rounded below a number that it reaches. -/
theorem units_le_sub (xFinite : x.isFinite = true) (yFinite : y.isFinite = true)
    (number : bound.isNaN = false) (reached : units bound ≤ (signedUnits x - signedUnits y).natAbs) :
    units bound ≤ units (x - y) := by
  rcases unpack_of_isFinite xFinite with xZero | ⟨xPositive, xKind, -⟩
  · have none : signedUnits x = 0 := by
      rw [← Int.natAbs_eq_zero, natAbs_signedUnits, units_of_unpack_zero xZero]
    rw [none, Int.zero_sub, Int.natAbs_neg, natAbs_signedUnits] at reached
    exact reached.trans (units_zero_sub xZero yFinite).ge
  rcases unpack_of_isFinite yFinite with yZero | ⟨yPositive, yKind, -⟩
  · have none : signedUnits y = 0 := by
      rw [← Int.natAbs_eq_zero, natAbs_signedUnits, units_of_unpack_zero yZero]
    rw [none, Int.sub_zero, natAbs_signedUnits] at reached
    exact reached.trans (units_sub_zero xFinite yZero).ge
  have place : min ((shift x : ℤ) - 1074) ((shift y : ℤ) - 1074) =
      (min (shift x) (shift y) : ℕ) - 1074 := by omega
  have xPlaces : ((shift x : ℤ) - 1074 - ((min (shift x) (shift y) : ℕ) - 1074)).toNat =
      shift x - min (shift x) (shift y) := by omega
  have yPlaces : ((shift y : ℤ) - 1074 - ((min (shift x) (shift y) : ℕ) - 1074)).toNat =
      shift y - min (shift x) (shift y) := by omega
  have difference : x - y = Float.ofModel (Float.Model.pack
    (UnpackedFloat.sub Format.binary64 x.toModel.unpack y.toModel.unpack)) := rfl
  rw [signedUnits_sub, Int.natAbs_mul, Int.natAbs_natCast] at reached
  rw [difference, xKind, yKind]
  simp only [UnpackedFloat.sub, UnpackedFloat.decreaseExponent, place, xPlaces, yPlaces]
  exact units_le_pack_normalize number _ reached

/-- A difference to a finite number is finite only if the number it is taken from is. -/
theorem isFinite_of_isFinite_sub (yFinite : y.isFinite = true) (finite : (x - y).isFinite = true) :
    x.isFinite = true := by
  have fits := (isFinite_pack (UnpackedFloat.sub Format.binary64 _ _)).mp finite
  by_contra exceptional
  rcases isNaN_or_isInf (Bool.not_eq_true _ ▸ exceptional) with nan | infinite
  · rw [unpack_of_isNaN nan] at fits
    exact fits
  · rw [unpack_of_isInf infinite] at fits
    rcases unpack_of_isFinite yFinite with yKind | ⟨yPositive, yKind, -⟩
    · rw [yKind] at fits
      exact fits
    · rw [yKind] at fits
      exact fits

/-- What a comparison finds to be closer than a bound is closer than the bound. -/
theorem natAbs_sub_lt (xFinite : x.isFinite = true) (yFinite : y.isFinite = true)
    (unsigned : isNegative bound = false) (close : (x - y).abs < bound) :
    (signedUnits x - signedUnits y).natAbs < units bound := by
  have number := (not_isNaN_of_lt close).2
  have less := (units_lt_of_abs_lt unsigned close).2
  by_contra far
  exact absurd (units_le_sub xFinite yFinite number (Nat.le_of_not_lt far)) (Nat.not_le_of_lt less)

end DomainColoring.Binary64
