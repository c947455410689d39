import DomainColoring.Binary64.Arithmetic
import DomainColoring.Proofs.Binary64.Rounding

/-!
# Where operations leave the finite numbers

An operation gives no number only if an operand is none, or if infinities or zeros meet that do
not fit together. A result is infinite if an operand is, or if its exponent grew beyond that of
the finite numbers. Where the results of operations lie among the finite numbers is not said here,
apart from a quotient by a number of two or more, which has no greater exponent than the dividend.
-/

namespace DomainColoring.Binary64

open Float.Model

/-- Unpacked zeros, and numbers with the exponent of a finite one. -/
def Fits : UnpackedFloat → Prop
  | .zero _ => True
  | .finite _ _ exponent _ => exponent ≤ 971
  | _ => False

theorem biasedExponent_eq (e : ℤ) :
    (e + (Format.binary64.exponentBias : ℤ) + (52 : ℕ)).toNat = (e + 1075).toNat := by
  have bias : (Format.binary64.exponentBias : ℤ) = 1023 := rfl
  rw [bias]
  congr 1
  omega

theorem targetExponent_eq (total : ℤ) :
    Format.binary64.targetExponent total = max (total - 53) (-1074) := rfl

/-- The exponent field tells what a number that was packed from fields is. -/
theorem isNaN_of_toBits {y : Float} {s : UnpackedFloat.Sign} {exponent fraction : Nat}
    (exponentBound : exponent < 2048) (fractionBound : fraction < 2 ^ 52)
    (bits : y.toBits.toNat = signShare s + exponent * 2 ^ 52 + fraction) :
    (y.isNaN = true ↔ exponent = 2047 ∧ fraction ≠ 0) ∧
      (y.isFinite = true ↔ exponent < 2047) := by
  obtain ⟨exponentEq, fractionEq, -⟩ := fields_of_toBits exponentBound fractionBound bits
  rw [isNaN_iff, isFinite_iff, exponentEq, fractionEq]
  exact ⟨Iff.rfl, Iff.rfl⟩

/-- A number with a mantissa is packed as an infinity if its exponent is too great, and as a finite
number otherwise. -/
theorem pack_finite (s : UnpackedFloat.Sign) (m : Nat) (e : ℤ) (positive : 0 < m) :
    (Float.ofModel (Float.Model.pack (.finite s m e positive))).isNaN = false ∧
      ((Float.ofModel (Float.Model.pack (.finite s m e positive))).isFinite = true ↔
        e ≤ 971) := by
  have bits : (Float.ofModel (Float.Model.pack (.finite s m e positive))).toBits.toNat =
      (UnpackedFloat.pack Format.binary64 (.finite s m e positive)).toNat := rfl
  simp only [UnpackedFloat.pack, biasedExponent_eq] at bits
  by_cases great : 2 ^ 11 ≤ (e + 1075).toNat + 1
  · rw [if_pos great, UnpackedFloat.packedInfinity, packComponents_toNat] at bits
    obtain ⟨number, finite⟩ := isNaN_of_toBits (by decide) (by decide) bits
    rw [← Bool.not_eq_true, number, finite]
    constructor
    · decide
    · change 2047 < 2047 ↔ e ≤ 971
      omega
  · rw [if_neg great] at bits
    have exponentEq : (BitVec.ofNat 11 (e + 1075).toNat).toNat = (e + 1075).toNat := by
      rw [BitVec.toNat_ofNat]
      exact Nat.mod_eq_of_lt (by omega)
    split at bits
    · rw [packComponents_toNat, exponentEq] at bits
      obtain ⟨number, finite⟩ := isNaN_of_toBits (by omega) (BitVec.isLt _) bits
      rw [← Bool.not_eq_true, number, finite]
      omega
    · rw [packComponents_toNat] at bits
      obtain ⟨number, finite⟩ := isNaN_of_toBits (by decide) (BitVec.isLt _) bits
      rw [← Bool.not_eq_true, number, finite]
      change ¬ (0 = 2047 ∧ _) ∧ (0 < 2047 ↔ e ≤ 971)
      omega

/-- Packing keeps apart what is no number, what is infinite and what is finite, only that a number
with too great an exponent becomes infinite. -/
theorem isNaN_pack (u : UnpackedFloat) :
    (Float.ofModel (Float.Model.pack u)).isNaN = u.isNaN := by
  cases u with
  | notANumber => decide
  | infinity s => cases s <;> decide
  | zero s => cases s <;> decide
  | finite s m e positive => exact (pack_finite s m e positive).1

theorem isFinite_pack (u : UnpackedFloat) :
    (Float.ofModel (Float.Model.pack u)).isFinite = true ↔ Fits u := by
  cases u with
  | notANumber => simp only [Fits, iff_false]; decide
  | infinity s => cases s <;> simp only [Fits, iff_false] <;> decide
  | zero s => cases s <;> simp only [Fits, iff_true] <;> decide
  | finite s m e positive => exact (pack_finite s m e positive).2

variable {x y : Float}

theorem unpack_of_isInf (infinite : x.isInf = true) : x.toModel.unpack = .infinity (sign x) := by
  obtain ⟨top, fraction⟩ := (isInf_iff x).mp infinite
  rw [unpack_number, if_pos top, if_pos fraction]

theorem unpack_of_isNaN (nan : x.isNaN = true) : x.toModel.unpack = .notANumber := by
  obtain ⟨top, fraction⟩ := (isNaN_iff x).mp nan
  rw [unpack_number, if_pos top, if_neg fraction]

/-- A finite number is a zero or has a mantissa. -/
theorem unpack_of_isFinite (finite : x.isFinite = true) :
    x.toModel.unpack = .zero (sign x) ∨
      ∃ positive, x.toModel.unpack =
        .finite (sign x) (significand x) ((shift x : ℤ) - 1074) positive ∧ shift x ≤ 2045 := by
  have exponent := (isFinite_iff x).mp finite
  have notTop : ¬ exponentField x = 2047 := by omega
  by_cases empty : significand x = 0
  · left
    rw [unpack_number, if_neg notTop, dif_pos empty]
  · right
    refine ⟨Nat.pos_of_ne_zero empty, ?_, ?_⟩
    · rw [unpack_number, if_neg notTop, dif_neg empty]
    · rw [shift]
      omega

theorem isFinite_or_isInf (number : x.isNaN = false) : x.isFinite = true ∨ x.isInf = true := by
  cases finite : x.isFinite with
  | true => exact .inl rfl
  | false =>
    rcases isNaN_or_isInf finite with nan | infinite
    · rw [number] at nan
      cases nan
    · exact .inr infinite

theorem isInf_eq_false_of_isNaN (nan : x.isNaN = true) : x.isInf = false := by
  obtain ⟨-, fraction⟩ := (isNaN_iff x).mp nan
  rw [← Bool.not_eq_true, isInf_iff]
  exact fun infinite => fraction infinite.2

/-!
## Rounding

Rounding a number with a mantissa gives a zero or a number with a mantissa, and its exponent grows
by one at most beyond the one that its bits ask for.
-/

theorem isNaN_roundWithAccuracy (s : UnpackedFloat.Sign) (m : Nat) (e : ℤ)
    (accuracy : UnpackedFloat.Accuracy) :
    (UnpackedFloat.roundWithAccuracy Format.binary64 s m e accuracy).isNaN = false := by
  unfold UnpackedFloat.roundWithAccuracy
  simp only
  split <;> rfl

theorem isNaN_normalize (m : ℤ) (e : ℤ) (zeroSign : UnpackedFloat.Sign) :
    (UnpackedFloat.normalize Format.binary64 m e zeroSign).isNaN = false := by
  unfold UnpackedFloat.normalize UnpackedFloat.round
  split
  · exact isNaN_roundWithAccuracy ..
  · rfl
  · exact isNaN_roundWithAccuracy ..

theorem log2_le_of_lt {n bits : Nat} (small : n < 2 ^ (bits + 1)) : n.log2 ≤ bits := by
  by_cases none : n = 0
  · rw [none]
    exact Nat.zero_le _
  · exact Nat.le_of_lt_succ ((Nat.log2_lt none).mpr small)

/-- How many bits a quotient has left after its dividend was moved to the left. -/
theorem log2_shiftLeft_div_le (m : Nat) {divisor : Nat} (places : Nat) (positive : 0 < divisor) :
    (m <<< places / divisor).log2 ≤ m.log2 + places - divisor.log2 := by
  apply log2_le_of_lt
  rw [Nat.div_lt_iff_lt_mul positive, Nat.shiftLeft_eq]
  calc
    m * 2 ^ places < 2 ^ (m.log2 + 1) * 2 ^ places :=
      Nat.mul_lt_mul_of_pos_right Nat.lt_log2_self (Nat.two_pow_pos _)
    _ = 2 ^ (m.log2 + 1 + places) := (Nat.pow_add ..).symm
    _ ≤ 2 ^ (m.log2 + places - divisor.log2 + 1 + divisor.log2) :=
      Nat.pow_le_pow_right (by decide) (by omega)
    _ = 2 ^ (m.log2 + places - divisor.log2 + 1) * 2 ^ divisor.log2 := Nat.pow_add ..
    _ ≤ 2 ^ (m.log2 + places - divisor.log2 + 1) * divisor :=
      Nat.mul_le_mul_left _ (Nat.log2_self_le positive.ne')

theorem shiftRight_mantissa (em : UnpackedFloat.ExtendedMantissa) (n : Nat) :
    (em >>> n).mantissa = em.mantissa / 2 ^ n := by
  change (n.repeat UnpackedFloat.ExtendedMantissa.shiftRightOne em).mantissa = _
  induction n with
  | zero => simp [Nat.repeat]
  | succ n inductionHypothesis =>
    rw [Nat.repeat, UnpackedFloat.ExtendedMantissa.shiftRightOne, inductionHypothesis, pow_succ,
      Nat.div_div_eq_div_mul]

theorem roundedMantissa_le (em : UnpackedFloat.ExtendedMantissa) :
    em.roundedMantissa ≤ em.mantissa + 1 := by
  rw [UnpackedFloat.ExtendedMantissa.roundedMantissa]
  cases em.accuracy with
  | exact => exact Nat.le_succ _
  | inexact relation =>
    cases relation with
    | lt => exact Nat.le_succ _
    | eq =>
      change em.mantissa + em.mantissa % 2 ≤ _
      omega
    | gt => exact le_rfl

theorem ofMantissaAndAccuracy_mantissa (m : Nat) (accuracy : UnpackedFloat.Accuracy) :
    (UnpackedFloat.ExtendedMantissa.ofMantissaAndAccuracy m accuracy).mantissa = m := by
  cases accuracy with
  | exact => rfl
  | inexact relation => cases relation <;> rfl

/-- The exponent that a number is shifted to, and the bits that are left of its mantissa then. -/
theorem shiftToTargetExponent_bounds (m : Nat) (e : ℤ) (accuracy : UnpackedFloat.Accuracy) :
    (UnpackedFloat.shiftToTargetExponent Format.binary64 m e accuracy).1.mantissa < 2 ^ 53 ∧
      (UnpackedFloat.shiftToTargetExponent Format.binary64 m e accuracy).2 =
        max e (max (totalExponent m e - 53) (-1074)) := by
  simp only [UnpackedFloat.shiftToTargetExponent, UnpackedFloat.shiftToExponent,
    targetExponent_eq, shiftRight_mantissa, ofMantissaAndAccuracy_mantissa]
  constructor
  · have places : m.log2 + 1 ≤ 53 + (max (totalExponent m e - 53) (-1074) - e).toNat := by
      rw [totalExponent]
      omega
    rw [Nat.div_lt_iff_lt_mul (Nat.two_pow_pos _), ← Nat.pow_add]
    exact Nat.lt_of_lt_of_le Nat.lt_log2_self (Nat.pow_le_pow_right (by decide) places)
  · omega

/-- Rounding a number that is well below the greatest finite one gives a finite number. -/
theorem fits_roundWithAccuracy (s : UnpackedFloat.Sign) {m : Nat} {e : ℤ}
    (accuracy : UnpackedFloat.Accuracy) (total : totalExponent m e ≤ 1023) (exponent : e ≤ 970) :
    Fits (UnpackedFloat.roundWithAccuracy Format.binary64 s m e accuracy) := by
  obtain ⟨few, firstExponent⟩ := shiftToTargetExponent_bounds m e accuracy
  unfold UnpackedFloat.roundWithAccuracy
  generalize UnpackedFloat.shiftToTargetExponent Format.binary64 m e accuracy = first
    at few firstExponent
  obtain ⟨em, e₁⟩ := first
  have rounded := roundedMantissa_le em
  obtain ⟨-, secondExponent⟩ := shiftToTargetExponent_bounds em.roundedMantissa e₁ .exact
  simp only at few firstExponent secondExponent ⊢
  -- Rounding up may take one more bit, and the exponent grows by one then.
  have bits : em.roundedMantissa.log2 ≤ 53 := log2_le_of_lt (by omega)
  rw [totalExponent] at secondExponent
  split
  · trivial
  · change (UnpackedFloat.shiftToTargetExponent Format.binary64 em.roundedMantissa e₁
      .exact).2 ≤ 971
    omega

/-! ## Sums and differences -/

theorem isNaN_add_of_isNaN (nan : y.isNaN = true) : (x + y).isNaN = true := by
  refine (isNaN_pack _).trans ?_
  rw [unpack_of_isNaN nan]
  cases x.toModel.unpack <;> rfl

theorem isNaN_add (finite : x.isFinite = true) (number : y.isNaN = false) :
    (x + y).isNaN = false := by
  refine (isNaN_pack _).trans ?_
  have yKind : y.toModel.unpack.isNaN = false := number
  generalize y.toModel.unpack = v at yKind ⊢
  rcases unpack_of_isFinite finite with xKind | ⟨xPositive, xKind, -⟩
  · rw [xKind]
    cases v with
    | notANumber => cases yKind
    | infinity t => rfl
    | zero t => cases sign x <;> cases t <;> rfl
    | finite t m e positive => rfl
  · rw [xKind]
    cases v with
    | notANumber => cases yKind
    | infinity t => rfl
    | zero t => rfl
    | finite t m e positive => exact isNaN_normalize ..

/-- Adding a zero to a finite number leaves it finite. -/
theorem isFinite_add_zero {t : UnpackedFloat.Sign} (finite : x.isFinite = true)
    (zero : y.toModel.unpack = .zero t) : (x + y).isFinite = true := by
  refine (isFinite_pack _).mpr ?_
  rw [zero]
  rcases unpack_of_isFinite finite with xKind | ⟨xPositive, xKind, small⟩
  · rw [xKind]
    cases sign x <;> cases t <;> trivial
  · rw [xKind]
    change (shift x : ℤ) - 1074 ≤ 971
    omega

theorem lt_unpack (less : x < y) : x.toModel.unpack.lt y.toModel.unpack = true := by
  change x.lt y = true at less
  rw [Float.lt, decide_eq_true_iff] at less
  exact less

/-- What is no number is in no order with anything. -/
theorem not_isNaN_of_lt (less : x < y) : x.isNaN = false ∧ y.isNaN = false := by
  have compared := lt_unpack less
  change x.toModel.unpack.isNaN = false ∧ y.toModel.unpack.isNaN = false
  generalize x.toModel.unpack = u at compared ⊢
  generalize y.toModel.unpack = v at compared ⊢
  cases u <;> cases v <;> first | exact ⟨rfl, rfl⟩ | cases compared

theorem not_isNaN_of_beq (same : (x == y) = true) : x.isNaN = false ∧ y.isNaN = false := by
  have compared : x.toModel.unpack.beq y.toModel.unpack = true := same
  change x.toModel.unpack.isNaN = false ∧ y.toModel.unpack.isNaN = false
  generalize x.toModel.unpack = u at compared ⊢
  generalize y.toModel.unpack = v at compared ⊢
  cases u <;> cases v <;> first | exact ⟨rfl, rfl⟩ | cases compared

theorem le_unpack (atMost : x ≤ y) : x.toModel.unpack.le y.toModel.unpack = true := by
  change x.le y = true at atMost
  rw [Float.le, decide_eq_true_iff] at atMost
  exact atMost

/-- What lies between two finite numbers is finite. -/
theorem isFinite_of_between {lower upper : Float} (lowerFinite : lower.isFinite = true)
    (upperFinite : upper.isFinite = true) (above : lower ≤ x) (below : x ≤ upper) :
    x.isFinite = true := by
  have fromBelow := le_unpack above
  have toAbove := le_unpack below
  by_contra exceptional
  rcases isNaN_or_isInf (Bool.not_eq_true _ ▸ exceptional) with nan | infinite
  · rw [unpack_of_isNaN nan] at toAbove
    cases toAbove
  · rw [unpack_of_isInf infinite] at fromBelow toAbove
    cases signed : sign x with
    | positive =>
      rw [signed] at toAbove
      rcases unpack_of_isFinite upperFinite with zero | ⟨_, finite, -⟩
      · rw [zero] at toAbove
        cases toAbove
      · rw [finite] at toAbove
        cases toAbove
    | negative =>
      rw [signed] at fromBelow
      rcases unpack_of_isFinite lowerFinite with zero | ⟨_, finite, -⟩
      · rw [zero] at fromBelow
        cases fromBelow
      · rw [finite] at fromBelow
        cases fromBelow

theorem unpacked_sub_of_lt {u v : UnpackedFloat} (less : u.lt v = true) :
    (UnpackedFloat.sub Format.binary64 v u).isNaN = false ∧
      (Fits (UnpackedFloat.sub Format.binary64 v u) → u.isFinite = true ∧ v.isFinite = true) := by
  cases u with
  | notANumber => cases v <;> cases less
  | infinity s =>
    cases v with
    | notANumber => cases less
    | infinity t => cases s <;> cases t <;> first | exact ⟨rfl, False.elim⟩ | cases less
    | zero t => exact ⟨rfl, False.elim⟩
    | finite t m e positive => exact ⟨rfl, False.elim⟩
  | zero s =>
    cases v with
    | notANumber => cases less
    | infinity t => exact ⟨rfl, False.elim⟩
    | zero t => cases less
    | finite t m e positive => exact ⟨rfl, fun _ => ⟨rfl, rfl⟩⟩
  | finite s m e positive =>
    cases v with
    | notANumber => cases less
    | infinity t => exact ⟨rfl, False.elim⟩
    | zero t => exact ⟨rfl, fun _ => ⟨rfl, rfl⟩⟩
    | finite t m' e' positive' => exact ⟨isNaN_normalize .., fun _ => ⟨rfl, rfl⟩⟩

/-- The difference of two numbers, the greater one less the smaller one, is a number, and it is
finite only if both are. -/
theorem sub_of_lt (less : x < y) :
    (y - x).isNaN = false ∧
      ((y - x).isFinite = true → x.isFinite = true ∧ y.isFinite = true) := by
  obtain ⟨number, operands⟩ := unpacked_sub_of_lt (lt_unpack less)
  exact ⟨(isNaN_pack _).trans number, fun finite => operands ((isFinite_pack _).mp finite)⟩

/-! ## Products and quotients -/

theorem isNaN_mul (xFinite : x.isFinite = true) (yFinite : y.isFinite = true) :
    (x * y).isNaN = false := by
  refine (isNaN_pack _).trans ?_
  rcases unpack_of_isFinite xFinite with xKind | ⟨xPositive, xKind, -⟩ <;>
    rcases unpack_of_isFinite yFinite with yKind | ⟨yPositive, yKind, -⟩ <;> rw [xKind, yKind]
  · rfl
  · rfl
  · rfl
  · exact isNaN_roundWithAccuracy ..

theorem isNaN_zero_mul {s : UnpackedFloat.Sign} (zero : x.toModel.unpack = .zero s)
    (infinite : y.isInf = true) : (x * y).isNaN = true := by
  refine (isNaN_pack _).trans ?_
  rw [zero, unpack_of_isInf infinite]
  rfl

theorem unpack_pack_zero (s : UnpackedFloat.Sign) :
    (Float.Model.pack (.zero s)).unpack = .zero s := by
  cases s <;> rfl

theorem exists_zero_mul {s : UnpackedFloat.Sign} (zero : x.toModel.unpack = .zero s)
    (finite : y.isFinite = true) : ∃ t, (x * y).toModel.unpack = .zero t := by
  have product : (x * y).toModel =
      Float.Model.pack (UnpackedFloat.mul Format.binary64 x.toModel.unpack y.toModel.unpack) := rfl
  rcases unpack_of_isFinite finite with yKind | ⟨yPositive, yKind, -⟩
  · rw [product, zero, yKind]
    exact ⟨_, unpack_pack_zero _⟩
  · rw [product, zero, yKind]
    exact ⟨_, unpack_pack_zero _⟩

theorem isInf_div (infinite : x.isInf = true) (finite : y.isFinite = true) :
    (x / y).isInf = true := by
  have packed : ∀ s, (Float.ofModel (Float.Model.pack (.infinity s))).isInf = true := by
    intro s
    cases s <;> decide
  have quotient : x / y = Float.ofModel (Float.Model.pack
      (UnpackedFloat.div Format.binary64 x.toModel.unpack y.toModel.unpack)) := rfl
  rw [quotient, unpack_of_isInf infinite]
  rcases unpack_of_isFinite finite with yKind | ⟨yPositive, yKind, -⟩
  · rw [yKind]
    exact packed _
  · rw [yKind]
    exact packed _

/-- A quotient by a number of two or more is smaller than the dividend. -/
theorem totalExponent_divCore {m₁ m₂ : Nat} {e₁ e₂ : ℤ} (divisor : 0 < m₂)
    (dividend : totalExponent m₁ e₁ ≤ 1024) (great : 2 ≤ totalExponent m₂ e₂) :
    let (m, e, _) := UnpackedFloat.divCore Format.binary64 m₁ e₁ m₂ e₂
    totalExponent m e ≤ 1023 ∧ e ≤ 970 := by
  simp only [UnpackedFloat.divCore, targetExponent_eq]
  generalize low : min (e₁ - e₂) (max (totalExponent m₁ e₁ - totalExponent m₂ e₂ - 53) (-1074)) = e
  have exponent : e ≤ 970 := by omega
  refine ⟨?_, exponent⟩
  have quotient := log2_shiftLeft_div_le m₁ (e₁ - e₂ - e).toNat divisor
  rw [totalExponent] at dividend great ⊢
  omega

theorem isFinite_div {s : UnpackedFloat.Sign} {m : Nat} {e : ℤ} {positive : 0 < m}
    (finite : x.isFinite = true) (divisor : y.toModel.unpack = .finite s m e positive)
    (great : 2 ≤ totalExponent m e) : (x / y).isFinite = true := by
  refine (isFinite_pack _).mpr ?_
  rw [divisor]
  rcases unpack_of_isFinite finite with xKind | ⟨xPositive, xKind, small⟩
  · rw [xKind]
    trivial
  · rw [xKind]
    have dividend : totalExponent (significand x) ((shift x : ℤ) - 1074) ≤ 1024 := by
      have bits := log2_le_of_lt (significand_lt x)
      rw [totalExponent]
      omega
    obtain ⟨total, exponent⟩ := totalExponent_divCore positive dividend great
    exact fits_roundWithAccuracy _ _ total exponent

/-- The quotient of a finite number by two or more is finite, also if the divisor is infinite. -/
theorem isFinite_div_of_great (finite : x.isFinite = true) (number : y.isNaN = false)
    (great : 1024 ≤ exponentField y) : (x / y).isFinite = true := by
  rcases isFinite_or_isInf number with yFinite | infinite
  · have leading : significand y = 2 ^ 52 + fractionField y := if_neg (by omega)
    have notTop : exponentField y ≠ 2047 := ((isFinite_iff y).mp yFinite).ne
    have notZero : significand y ≠ 0 := by omega
    have divisor := unpack_number y
    rw [if_neg notTop, dif_neg notZero] at divisor
    refine isFinite_div finite divisor ?_
    have bits : 52 ≤ (significand y).log2 := (Nat.le_log2 notZero).mpr (by omega)
    rw [totalExponent, shift]
    omega
  · refine (isFinite_pack _).mpr ?_
    rw [unpack_of_isInf infinite]
    rcases unpack_of_isFinite finite with xKind | ⟨xPositive, xKind, -⟩ <;> rw [xKind] <;> trivial

theorem isFinite_withSign (negative : Bool) (finite : x.isFinite = true) :
    (withSign negative x).isFinite = true := by
  cases negative with
  | false => exact finite
  | true =>
    obtain ⟨exponent, -⟩ := fields_neg (isNaN_of_isFinite finite)
    rw [withSign, if_pos rfl, isFinite_iff, exponent]
    exact (isFinite_iff x).mp finite

/-! ## Whole numbers -/

/-- A number that has all bits of a mantissa is packed as it is. -/
theorem unpack_pack_finite {s : UnpackedFloat.Sign} {m : Nat} {e : ℤ} {positive : 0 < m}
    (full : m.log2 = 52) (least : -1074 ≤ e) (greatest : e ≤ 971) :
    (Float.Model.pack (.finite s m e positive)).unpack = .finite s m e positive := by
  have lower : 2 ^ 52 ≤ m := full ▸ Nat.log2_self_le positive.ne'
  have upper : m < 2 ^ 53 := by
    have below := Nat.lt_log2_self (n := m)
    rwa [full] at below
  let y := Float.ofModel (Float.Model.pack (.finite s m e positive))
  have bits : y.toBits.toNat =
      (UnpackedFloat.pack Format.binary64 (.finite s m e positive)).toNat := rfl
  have normal : m.log2 + 1 = Format.binary64.mantissaBits := by
    rw [full]
    rfl
  simp only [UnpackedFloat.pack, biasedExponent_eq] at bits
  rw [if_neg (by omega), if_pos normal, packComponents_toNat, BitVec.toNat_ofNat,
    BitVec.toNat_ofNat, Nat.mod_eq_of_lt (a := (e + 1075).toNat) (by omega)] at bits
  obtain ⟨exponent, fraction, negative⟩ :=
    fields_of_toBits (by omega) (Nat.mod_lt _ (Nat.two_pow_pos _)) bits
  have signEq : sign y = s := by
    rw [sign]
    cases s <;> simp [negative]
  have significandEq : significand y = m := by
    rw [significand, exponent, fraction, if_neg (by omega)]
    omega
  have shiftEq : (shift y : ℤ) - 1074 = e := by
    rw [shift, exponent]
    omega
  have unpacked := unpack_number y
  simp only [signEq, significandEq, shiftEq] at unpacked
  rw [if_neg (by omega), dif_neg positive.ne'] at unpacked
  exact unpacked

/-- A mantissa with no more bits than there is room for is not shifted. -/
theorem shiftToTargetExponent_exact {m : Nat} {e : ℤ}
    (room : max (totalExponent m e - 53) (-1074) ≤ e) :
    UnpackedFloat.shiftToTargetExponent Format.binary64 m e .exact = (⟨m, false, false⟩, e) := by
  have unmoved : (max (totalExponent m e - 53) (-1074) - e).toNat = 0 := by omega
  simp only [UnpackedFloat.shiftToTargetExponent, UnpackedFloat.shiftToExponent,
    targetExponent_eq, unmoved]
  rw [Prod.mk.injEq]
  exact ⟨rfl, by omega⟩

theorem roundWithAccuracy_exact {s : UnpackedFloat.Sign} {m : Nat} {e : ℤ} (positive : 0 < m)
    (room : max (totalExponent m e - 53) (-1074) ≤ e) :
    UnpackedFloat.roundWithAccuracy Format.binary64 s m e .exact = .finite s m e positive := by
  have rounded : (⟨m, false, false⟩ : UnpackedFloat.ExtendedMantissa).roundedMantissa = m := rfl
  simp only [UnpackedFloat.roundWithAccuracy, shiftToTargetExponent_exact room, rounded]
  rw [dif_neg positive.ne']

/-- Shifted to the left as far as there is room, a whole number has all bits of a mantissa. -/
theorem log2_shiftLeft_room {n : Nat} (positive : 0 < n) (small : n < 2 ^ 53) :
    (n <<< (52 - n.log2)).log2 = 52 := by
  have bits := log2_le_of_lt small
  have shifted : n <<< (52 - n.log2) ≠ 0 := by
    rw [Nat.shiftLeft_eq]
    positivity
  rw [Nat.log2_eq_iff shifted, Nat.shiftLeft_eq]
  constructor
  · calc
      2 ^ 52 = 2 ^ n.log2 * 2 ^ (52 - n.log2) := by rw [← Nat.pow_add, Nat.add_sub_cancel' bits]
      _ ≤ n * 2 ^ (52 - n.log2) := Nat.mul_le_mul_right _ (Nat.log2_self_le positive.ne')
  · calc
      n * 2 ^ (52 - n.log2) < 2 ^ (n.log2 + 1) * 2 ^ (52 - n.log2) :=
        Nat.mul_lt_mul_of_pos_right Nat.lt_log2_self (Nat.two_pow_pos _)
      _ = 2 ^ (52 + 1) := by rw [← Nat.pow_add]; congr 1; omega

theorem compare_natCast_zero {n : Nat} (positive : 0 < n) : compare (n : ℤ) 0 = .gt := by
  rw [compare_gt_iff_gt]
  omega

/-- A whole number with no more bits than a mantissa is its own rounding. -/
theorem normalize_natCast {n : Nat} (positive : 0 < n) (small : n < 2 ^ 53) :
    ∃ shifted, UnpackedFloat.normalize Format.binary64 n 0 .positive =
      .finite .positive (n <<< (52 - n.log2)) ((n.log2 : ℤ) - 52) shifted := by
  have bits := log2_le_of_lt small
  have shifted : 0 < n <<< (52 - n.log2) := by
    rw [Nat.shiftLeft_eq]
    positivity
  have target : Format.binary64.targetExponent (totalExponent n 0) = (n.log2 : ℤ) - 52 := by
    rw [targetExponent_eq, totalExponent]
    omega
  have places : ((0 : ℤ) - ((n.log2 : ℤ) - 52)).toNat = 52 - n.log2 := by omega
  have exponent : (0 : ℤ) - (52 - n.log2 : ℕ) = (n.log2 : ℤ) - 52 := by omega
  refine ⟨shifted, ?_⟩
  simp only [UnpackedFloat.normalize, compare_natCast_zero positive, UnpackedFloat.round,
    Int.toNat_natCast, target, UnpackedFloat.decreaseExponent, places, exponent]
  apply roundWithAccuracy_exact
  rw [totalExponent, log2_shiftLeft_room positive small]
  omega

/-- A word that is a whole number with no more bits than a mantissa becomes that number. -/
theorem unpack_toFloat {n : UInt64} (positive : 0 < n.toNat) (small : n.toNat < 2 ^ 53) :
    ∃ shifted, n.toFloat.toModel.unpack =
      .finite .positive (n.toNat <<< (52 - n.toNat.log2)) ((n.toNat.log2 : ℤ) - 52) shifted := by
  obtain ⟨shifted, normalized⟩ := normalize_natCast positive small
  have bits := log2_le_of_lt small
  have converted : n.toFloat.toModel = Float.Model.pack
    (UnpackedFloat.normalize Format.binary64 (n.toNat : ℤ) 0 .positive) := rfl
  rw [converted, normalized]
  exact ⟨shifted, unpack_pack_finite (log2_shiftLeft_room positive small) (by omega) (by omega)⟩

theorem unpack_toFloat_zero : (0 : UInt64).toFloat.toModel.unpack = .zero .positive := rfl

/-- No word is too great to become a finite number, though it may be rounded. -/
theorem isFinite_toFloat (n : UInt64) : n.toFloat.isFinite = true := by
  refine (isFinite_pack (UnpackedFloat.normalize Format.binary64 (n.toNat : ℤ) 0 .positive)).mpr ?_
  rcases Nat.eq_zero_or_pos n.toNat with none | positive
  · rw [none]
    trivial
  · have bits : n.toNat.log2 ≤ 63 := log2_le_of_lt n.toNat_lt
    simp only [UnpackedFloat.normalize, compare_natCast_zero positive, UnpackedFloat.round,
      Int.toNat_natCast, UnpackedFloat.decreaseExponent]
    generalize (0 - Format.binary64.targetExponent (totalExponent n.toNat 0)).toNat = places
    have shifted : (n.toNat <<< places).log2 ≤ n.toNat.log2 + places := by
      apply log2_le_of_lt
      rw [Nat.shiftLeft_eq, Nat.add_right_comm, Nat.pow_add]
      exact Nat.mul_lt_mul_of_pos_right Nat.lt_log2_self (Nat.two_pow_pos _)
    apply fits_roundWithAccuracy
    · rw [totalExponent]
      omega
    · omega

/-- The quotient of a finite number by a whole number of two or more is finite. -/
theorem isFinite_div_toFloat {n : UInt64} (finite : x.isFinite = true) (great : 2 ≤ n.toNat)
    (small : n.toNat < 2 ^ 53) : (x / n.toFloat).isFinite = true := by
  obtain ⟨shifted, unpacked⟩ := unpack_toFloat (by omega) small
  apply isFinite_div finite unpacked
  have bits : 1 ≤ n.toNat.log2 := (Nat.le_log2 (by omega)).mpr great
  rw [totalExponent, log2_shiftLeft_room (by omega) small]
  omega

/-! ## Lengths -/

theorem isNaN_maximum_zero (x : Float) : (maximum x 0.0).isNaN = false := by
  cases number : x.isNaN with
  | true =>
    rw [maximum, if_pos number]
    decide
  | false =>
    rw [maximum, if_neg (by rw [number]; decide)]
    split
    · decide
    · exact number

/-- The length of a vector is a number if both legs are. -/
theorem isNaN_hypotenuse (xNumber : x.isNaN = false) (yNumber : y.isNaN = false) :
    (hypotenuse x y).isNaN = false := by
  rw [hypotenuse, xNumber, yNumber]
  split
  · decide
  · exact isNaN_maximum_zero _

/-- The length of a vector is no number if a leg is none and the other one is not infinite. -/
theorem isNaN_hypotenuse_of_isNaN (nan : x.isNaN = true ∨ y.isNaN = true)
    (xBounded : x.isInf = false) (yBounded : y.isInf = false) :
    (hypotenuse x y).isNaN = true := by
  have either : (x.isNaN || y.isNaN) = true := by simpa using nan
  rw [hypotenuse, xBounded, yBounded, if_neg (by decide), if_pos either]
  decide

end DomainColoring.Binary64
