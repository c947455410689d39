import DomainColoring.Proofs.Binary64.Fields

/-!
# Packing a number

A number that is packed from the fields of another one and a sign has these fields. So negation
changes the sign bit and nothing else, and a bit pattern up to that of infinity is the pattern
of the number it is read as. Numbers that are no numbers are left out.
-/

namespace DomainColoring.Binary64

open Float.Model

/-- The share of the sign in a bit pattern. -/
def signShare : UnpackedFloat.Sign → Nat
  | .negative => 2 ^ 63
  | .positive => 0

theorem packComponents_toNat (s : UnpackedFloat.Sign) (exponent : BitVec 11)
    (mantissa : BitVec 52) :
    (UnpackedFloat.packComponents Format.binary64 s exponent mantissa).toNat =
      signShare s + exponent.toNat * 2 ^ 52 + mantissa.toNat := by
  have exponentBound := exponent.isLt
  have mantissaBound := mantissa.isLt
  have outer : (UnpackedFloat.packComponents Format.binary64 s exponent mantissa).toNat =
      (s.toBitVec ++ exponent).toNat <<< 52 + mantissa.toNat := by
    rw [Nat.shiftLeft_add_eq_or_of_lt mantissaBound]
    exact BitVec.toNat_append _ _
  have inner : (s.toBitVec ++ exponent).toNat = s.toBitVec.toNat <<< 11 + exponent.toNat := by
    rw [Nat.shiftLeft_add_eq_or_of_lt exponentBound]
    exact BitVec.toNat_append _ _
  rw [outer, inner, Nat.shiftLeft_eq, Nat.shiftLeft_eq]
  cases s
  · change (1 * 2 ^ 11 + exponent.toNat) * 2 ^ 52 + mantissa.toNat = 2 ^ 63 + _ + _
    omega
  · change (0 * 2 ^ 11 + exponent.toNat) * 2 ^ 52 + mantissa.toNat = 0 + _ + _
    omega

/-- The unpacked number with this sign and the magnitude of a number that is one. -/
def unpackedWith (s : UnpackedFloat.Sign) (x : Float) : UnpackedFloat :=
  if exponentField x = 2047 then .infinity s
  else if empty : significand x = 0 then .zero s
  else .finite s (significand x) ((shift x : ℤ) - 1074) (Nat.pos_of_ne_zero empty)

theorem fractionField_of_top {x : Float} (number : x.isNaN = false) (top : exponentField x = 2047) :
    fractionField x = 0 := by
  by_contra fraction
  rw [(isNaN_iff x).mpr ⟨top, fraction⟩] at number
  cases number

theorem unpack_eq_unpackedWith {x : Float} (number : x.isNaN = false) :
    x.toModel.unpack = unpackedWith (sign x) x := by
  rw [unpack_number, unpackedWith]
  by_cases top : exponentField x = 2047
  · rw [if_pos top, if_pos top, if_pos (fractionField_of_top number top)]
  · rw [if_neg top, if_neg top]

theorem pack_toBits (u : UnpackedFloat) :
    (Float.Model.pack u).toBits.toNat = (UnpackedFloat.pack Format.binary64 u).toNat := rfl

/-- Packing puts the fields of the magnitude behind the sign. -/
theorem pack_unpackedWith (s : UnpackedFloat.Sign) {x : Float} (number : x.isNaN = false) :
    (Float.Model.pack (unpackedWith s x)).toBits.toNat =
      signShare s + exponentField x * 2 ^ 52 + fractionField x := by
  have exponentBound := exponentField_lt x
  have fractionBound := fractionField_lt x
  rw [pack_toBits, unpackedWith]
  by_cases top : exponentField x = 2047
  · rw [if_pos top, fractionField_of_top number top, top]
    exact packComponents_toNat s _ _
  · rw [if_neg top]
    by_cases empty : significand x = 0
    · have noExponent : exponentField x = 0 := by
        by_contra normal
        rw [significand, if_neg normal] at empty
        omega
      have noFraction : fractionField x = 0 := by
        rw [significand, if_pos noExponent] at empty
        exact empty
      rw [dif_pos empty, noExponent, noFraction]
      exact packComponents_toNat s _ _
    · rw [dif_neg empty, UnpackedFloat.pack]
      have biased : ((shift x : ℤ) - 1074 + (Format.binary64.exponentBias : ℤ) + (52 : ℕ)).toNat =
          shift x + 1 := by
        have bias : (Format.binary64.exponentBias : ℤ) = 1023 := rfl
        rw [bias]
        omega
      simp only [biased]
      have fits : ¬ 2 ^ 11 ≤ shift x + 1 + 1 := by
        rw [shift]
        omega
      rw [if_neg fits]
      by_cases subnormal : exponentField x = 0
      · have short : ¬ (significand x).log2 + 1 = Format.binary64.mantissaBits := by
          have bound : (significand x).log2 < 52 := by
            rw [Nat.log2_lt empty, significand, if_pos subnormal]
            exact fractionBound
          intro full
          change (significand x).log2 + 1 = 53 at full
          omega
        have mantissa : (BitVec.ofNat 52 (fractionField x)).toNat = fractionField x := by
          rw [BitVec.toNat_ofNat]
          exact Nat.mod_eq_of_lt fractionBound
        rw [if_neg short, packComponents_toNat, subnormal, significand, if_pos subnormal, mantissa]
        rfl
      · have full : (significand x).log2 + 1 = Format.binary64.mantissaBits := by
          have least : 52 ≤ (significand x).log2 := by
            rw [Nat.le_log2 empty, significand, if_neg subnormal]
            omega
          have greatest : (significand x).log2 < 53 := by
            rw [Nat.log2_lt empty]
            exact significand_lt x
          change (significand x).log2 + 1 = 53
          omega
        have exponent : shift x + 1 = exponentField x := by
          rw [shift]
          omega
        rw [if_pos full, packComponents_toNat, exponent, BitVec.toNat_ofNat, BitVec.toNat_ofNat,
          Nat.mod_eq_of_lt exponentBound, significand, if_neg subnormal]
        change _ + _ + (2 ^ 52 + fractionField x) % 2 ^ 52 = _
        rw [Nat.add_mod_left, Nat.mod_eq_of_lt fractionBound]

/-- A number packed from fields has these fields. -/
theorem fields_of_toBits {y : Float} {s : UnpackedFloat.Sign} {exponent fraction : Nat}
    (exponentBound : exponent < 2048) (fractionBound : fraction < 2 ^ 52)
    (bits : y.toBits.toNat = signShare s + exponent * 2 ^ 52 + fraction) :
    exponentField y = exponent ∧ fractionField y = fraction ∧
      (isNegative y = true ↔ s = .negative) := by
  rw [exponentField_eq, fractionField_eq, isNegative_iff]
  cases s with
  | negative =>
    have set : y.toBits.toNat = 2 ^ 63 + exponent * 2 ^ 52 + fraction := bits
    simp only [iff_true]
    omega
  | positive =>
    have clear : y.toBits.toNat = 0 + exponent * 2 ^ 52 + fraction := bits
    simp only [reduceCtorEq, iff_false]
    omega

theorem toBits_neg {x : Float} (number : x.isNaN = false) :
    (-x).toBits.toNat =
      signShare (if isNegative x then .positive else .negative) + exponentField x * 2 ^ 52 +
        fractionField x := by
  have negated : (-x).toModel = Float.Model.pack (x.toModel.unpack.neg) := rfl
  have turned : x.toModel.unpack.neg =
      unpackedWith (if isNegative x then .positive else .negative) x := by
    rw [unpack_eq_unpackedWith number, unpackedWith, unpackedWith, sign]
    split
    · split <;> rfl
    · split
      · split <;> rfl
      · split <;> rfl
  rw [Float.toBits, negated, turned, pack_unpackedWith _ number]

/-- Negation keeps the magnitude and turns the sign. -/
theorem fields_neg {x : Float} (number : x.isNaN = false) :
    exponentField (-x) = exponentField x ∧ fractionField (-x) = fractionField x ∧
      isNegative (-x) = !isNegative x := by
  obtain ⟨exponent, fraction, negative⟩ :=
    fields_of_toBits (exponentField_lt x) (fractionField_lt x) (toBits_neg number)
  refine ⟨exponent, fraction, ?_⟩
  cases sign : isNegative x with
  | true =>
    rw [sign] at negative
    simpa using negative
  | false =>
    rw [sign] at negative
    simpa using negative

/-- A pattern up to that of infinity is the pattern of the number it is read as. -/
theorem toBits_ofBits {bits : UInt64} (small : bits.toNat ≤ infinityPattern) :
    (Float.ofBits bits).toBits = bits := by
  have limit : bits.toNat ≤ 2047 * 2 ^ 52 := small
  have valid : Format.binary64.Valid bits.toBitVec := by
    refine ⟨fun top fraction => absurd ?_ fraction⟩
    have exponent : bits.toNat / 2 ^ 52 % 2 ^ 11 = 2047 := by
      rw [← unpackExponent_bits, top]
      rfl
    apply BitVec.eq_of_toNat_eq
    rw [unpackMantissa_bits]
    change _ = 0
    omega
  let x : Float := .ofModel ⟨bits, valid⟩
  have xBits : x.toBits = bits := rfl
  have number : x.isNaN = false := by
    rw [← Bool.not_eq_true, isNaN_iff, exponentField_eq, fractionField_eq, xBits]
    omega
  have packed : (Float.ofBits bits).toBits = (Float.Model.pack x.toModel.unpack).toBits := rfl
  have share : signShare (sign x) = if isNegative x then 2 ^ 63 else 0 := by
    rw [sign]
    split <;> rfl
  apply UInt64.toNat_inj.mp
  rw [packed, unpack_eq_unpackedWith number, pack_unpackedWith _ number, share, ← xBits,
    toBits_eq_fields x]

end DomainColoring.Binary64
