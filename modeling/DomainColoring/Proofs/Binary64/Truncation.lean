import DomainColoring.Proofs.Binary64.Distance

/-!
# Binary64 numbers as words

A word that fits into a mantissa becomes a number of exactly as many ones. Back to a word, a number
loses what is behind its point. So a number that is not negative and below a whole one becomes a
word below it.
-/

namespace DomainColoring.Binary64

open Float.Model

variable {x : Float} {n : UInt64}

theorem sign_of_unpack {s : UnpackedFloat.Sign} {mantissa : ℕ} {exponent : ℤ}
    {positive : 0 < mantissa}
    (unpacked : x.toModel.unpack = .finite s mantissa exponent positive) : sign x = s := by
  rw [unpack_number] at unpacked
  split at unpacked
  · split at unpacked <;> cases unpacked
  · split at unpacked
    · cases unpacked
    · exact (UnpackedFloat.finite.inj unpacked).1

theorem signedUnits_zero : signedUnits 0.0 = 0 := by decide

theorem one_eq_mul {place : ℕ} (within : place ≤ unitPlaces) :
    one = 2 ^ (unitPlaces - place) * 2 ^ place := by
  rw [one_eq, Nat.pow_sub_mul_pow 2 within]

/-- A small word is that many ones, without a sign. -/
theorem signedUnits_toFloat (small : n.toNat < 2 ^ 53) :
    signedUnits n.toFloat = (n.toNat * one : ℕ) := by
  rcases Nat.eq_zero_or_pos n.toNat with none | positive
  · obtain rfl : n = 0 := UInt64.toNat_inj.mp none
    rw [signedUnits, units_of_unpack_zero unpack_toFloat_zero]
    simp
  · obtain ⟨shifted, unpacked⟩ := unpack_toFloat positive small
    have bits : n.toNat.log2 ≤ 52 := log2_le_of_lt small
    have place : (n.toNat.log2 : ℤ) - 52 = ((n.toNat.log2 + 1022 : ℕ) : ℤ) - 1074 := by omega
    have left : unitPlaces - (n.toNat.log2 + 1022) = 52 - n.toNat.log2 := by
      rw [unitPlaces]
      omega
    have within : n.toNat.log2 + 1022 ≤ unitPlaces := by
      rw [unitPlaces]
      omega
    rw [place] at unpacked
    have counted : units n.toFloat = n.toNat * one := by
      rw [units_of_unpack unpacked, Nat.shiftLeft_eq, Nat.mul_assoc, ← left,
        ← one_eq_mul within]
    rw [signedUnits_eq, sign_of_unpack unpacked, counted, UnpackedFloat.Sign.apply]

/-- A number is rounded towards zero to the quotient of its units by those of one. -/
theorem roundToInt_eq (s : UnpackedFloat.Sign) (mantissa place : ℕ) :
    UnpackedFloat.roundToInt s mantissa ((place : ℤ) - 1074) =
      s.apply ((mantissa * 2 ^ place / one : ℕ) : ℤ) := by
  simp only [UnpackedFloat.roundToInt, UnpackedFloat.decreaseExponent,
    UnpackedFloat.shiftToExponent, shiftRight_mantissa, ofMantissaAndAccuracy_mantissa,
    Nat.shiftLeft_eq]
  congr 2
  rcases Nat.le_total place 1074 with behind | before
  · have kept : ((place : ℤ) - 1074 - 0).toNat = 0 := by omega
    have dropped : (0 - ((place : ℤ) - 1074 - (0 : ℕ))).toNat = unitPlaces - place := by
      rw [unitPlaces]
      omega
    rw [kept, dropped, one_eq_mul behind, Nat.pow_zero, Nat.mul_one,
      Nat.mul_div_mul_right _ _ (Nat.two_pow_pos place)]
  · have added : ((place : ℤ) - 1074 - 0).toNat = place - unitPlaces := by
      rw [unitPlaces]
      omega
    have dropped : (0 - ((place : ℤ) - 1074 - (place - unitPlaces : ℕ))).toNat = 0 := by
      rw [unitPlaces]
      omega
    have shifted : 2 ^ (place - unitPlaces) * one = 2 ^ place := by
      rw [one_eq]
      exact Nat.pow_sub_mul_pow 2 before
    rw [added, dropped, ← shifted, Nat.pow_zero, Nat.div_one, ← Nat.mul_assoc,
      Nat.mul_div_cancel _ one_pos]

/-- So many ones are fewer units than an infinity has. -/
theorem mul_one_lt_infiniteUnits {count : ℕ} (few : count < 2 ^ 53) :
    count * one < infiniteUnits := by
  have within : unitPlaces + 1 ≤ infiniteShift := by decide
  rw [one_eq]
  calc
    count * 2 ^ unitPlaces < 2 ^ 53 * 2 ^ unitPlaces :=
      Nat.mul_lt_mul_of_pos_right few (Nat.two_pow_pos unitPlaces)
    _ = 2 ^ 52 * 2 ^ (unitPlaces + 1) := carry unitPlaces
    _ ≤ 2 ^ 52 * 2 ^ infiniteShift :=
      Nat.mul_le_mul_left _ (Nat.pow_le_pow_right (by decide) within)

theorem toNat_ofNatClamp {m : ℕ} (isWord : m < 2 ^ 64) : (UInt64.ofNatClamp m).toNat = m := by
  have fits : m < UInt64.size := isWord
  rw [UInt64.ofNatClamp, dif_pos fits, UInt64.toNat_ofNatLT]

/-- A number that is not negative and below a small word becomes the quotient of its units by those
of one. -/
theorem toNat_toUInt64 (nonnegative : 0.0 ≤ x) (below : x < n.toFloat)
    (small : n.toNat < 2 ^ 53) :
    units x < n.toNat * one ∧ x.toUInt64.toNat = units x / one := by
  obtain ⟨number, wordNumber⟩ := not_isNaN_of_lt below
  rw [le_iff_signedUnits (by decide) number] at nonnegative
  rw [lt_iff_signedUnits number wordNumber, signedUnits_toFloat small] at below
  rw [signedUnits_zero] at nonnegative
  have unsigned : signedUnits x = units x := by
    by_cases negative : isNegative x = true
    · rw [signedUnits, if_pos negative] at nonnegative ⊢
      omega
    · rw [signedUnits, if_neg negative]
  rw [unsigned, Int.ofNat_lt] at below
  refine ⟨below, ?_⟩
  have share : units x / one < n.toNat := Nat.div_lt_of_lt_mul (by rwa [Nat.mul_comm])
  have truncated : x.toModel.unpack.toInt 0 (UInt64.size - 1) = (units x / one : ℕ) := by
    rcases unpack_cases number with ⟨-, infinite⟩ | ⟨zero, none⟩ | ⟨positive, unpacked, some, -⟩
    · exact absurd below (infinite ▸ (mul_one_lt_infiniteUnits small).asymm)
    · rw [zero, none, Nat.zero_div]
      rfl
    · rw [unpacked, UnpackedFloat.toInt, roundToInt_eq, ← units_eq]
      rw [signedUnits_eq] at unsigned
      cases signed : sign x with
      | positive => rfl
      | negative =>
        rw [signed, UnpackedFloat.Sign.apply] at unsigned
        omega
  change (UInt64.ofNatClamp (x.toModel.unpack.toInt 0 (UInt64.size - 1)).toNat).toNat = _
  rw [truncated, Int.toNat_natCast, toNat_ofNatClamp]
  have wordLimit := n.toNat_lt
  omega

theorem toUInt64_lt (nonnegative : 0.0 ≤ x) (below : x < n.toFloat)
    (small : n.toNat < 2 ^ 53) : x.toUInt64 < n := by
  obtain ⟨fewer, truncated⟩ := toNat_toUInt64 nonnegative below small
  rw [UInt64.lt_iff_toNat_lt, truncated]
  exact Nat.div_lt_of_lt_mul (by rwa [Nat.mul_comm])

end DomainColoring.Binary64
