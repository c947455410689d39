import DomainColoring.Decimal.Rounded
import DomainColoring.Proofs.ComplexNumber.RoundTrip

/-!
# Texts with two places

The text of a finite number with two places is digits, a point and two digits, behind a minus sign
if the number has one. `denoted?` is the rational number that a text denotes, read without any
rounding. For these texts it is a count of hundredths, the nearest to the number, so it is not more
than half a hundredth away. What is written for the numbers that are not finite is not looked at.
-/

namespace DomainColoring

/-- Rounding a quotient moves it by a half at most. -/
theorem Rounding.abs_halfEven_sub_le {num den : Nat} (positive : 0 < den) :
    |(halfEven num den : ℚ) - num / den| ≤ 1 / 2 := by
  have parts : den * (num / den) + num % den = num := Nat.div_add_mod num den
  have rest : num % den < den := Nat.mod_lt num positive
  have near : 2 * (den * halfEven num den) ≤ 2 * num + den ∧
      2 * num ≤ 2 * (den * halfEven num den) + den := by
    have next : den * (num / den + 1) = den * (num / den) + den := Nat.mul_succ _ _
    unfold halfEven
    dsimp only
    split_ifs
    · omega
    · rw [next]
      omega
    · omega
    · rw [next]
      omega
  have below : 2 * ((den : ℚ) * halfEven num den) ≤ 2 * num + den := by exact_mod_cast near.1
  have above : 2 * (num : ℚ) ≤ 2 * (den * halfEven num den) + den := by exact_mod_cast near.2
  have denominator : (0 : ℚ) < den := by exact_mod_cast positive
  have distance : (halfEven num den : ℚ) - num / den = (den * halfEven num den - num) / den := by
    field_simp
  rw [distance, abs_div, abs_of_pos denominator, div_le_iff₀ denominator, abs_le]
  constructor <;> linarith

/-- Hundredths that are rounded are off by half a hundredth at most. -/
theorem Rounding.abs_halfEven_hundredths_sub_le (num : Nat) {den : Nat} (positive : 0 < den) :
    |(halfEven (num * 100) den : ℚ) / 100 - num / den| ≤ 1 / 200 := by
  have near : |(halfEven (num * 100) den : ℚ) - (num * 100 : ℕ) / den| ≤ 1 / 2 :=
    abs_halfEven_sub_le positive
  have scaled : (halfEven (num * 100) den : ℚ) / 100 - num / den =
      (halfEven (num * 100) den - (num * 100 : ℕ) / den) / 100 := by
    push_cast
    ring
  rw [scaled, abs_div, abs_of_pos (by norm_num : (0 : ℚ) < 100), div_le_iff₀ (by norm_num)]
  linarith

namespace Decimal

open Binary64

/-- The number `coefficient * 10 ^ exponent`. -/
def rational (d : Decimal) : ℚ :=
  d.coefficient * 10 ^ d.exponent

/-- The rational number that a text denotes, if it is a decimal with an optional sign. -/
def denoted? (text : List Char) : Option ℚ :=
  let (negative, magnitude) := splitSign text
  (readUnsigned? magnitude).map fun d => if negative then -d.rational else d.rational

/-- The number with these digits on both sides of the point. -/
def pointed (whole fraction : List Char) : ℚ :=
  ofDigits (whole ++ fraction) / 10 ^ fraction.length

theorem rational_pointed (whole fraction : List Char) :
    rational ⟨ofDigits (whole ++ fraction), 0 - fraction.length⟩ = pointed whole fraction := by
  rw [rational, pointed, zero_sub, zpow_neg, zpow_natCast, div_eq_mul_inv]

/-- Zeros at the end of the places do not count. -/
theorem pointed_append_zeros (whole fraction : List Char) (count : Nat) :
    pointed whole (fraction ++ List.replicate count '0') = pointed whole fraction := by
  have power : (10 : ℚ) ^ count ≠ 0 := by positivity
  rw [pointed, pointed, ← List.append_assoc, ofDigits_append_zeros, List.length_append,
    List.length_replicate, pow_add, Nat.cast_mul, Nat.cast_pow, Nat.cast_ofNat]
  exact mul_div_mul_right _ _ power

/-- The sign that is written in front of a magnitude. -/
def minus (negative : Bool) : List Char :=
  if negative then ['-'] else []

/-- A numeral behind a sign denotes its value with this sign. -/
theorem denoted?_numeral (negative : Bool) {whole fraction : List Char}
    (isNumeral : IsNumeral whole fraction) :
    denoted? (minus negative ++ numeral whole fraction) =
      some (if negative then -pointed whole fraction else pointed whole fraction) := by
  have read := readUnsigned?_numeral isNumeral [] nofun
  have split := splitSign_numeral isNumeral []
  rw [List.append_nil] at read split
  cases negative with
  | true =>
    have splitMinus : splitSign (minus true ++ numeral whole fraction) =
        (true, numeral whole fraction) := rfl
    simp only [denoted?, if_true, splitMinus, read]
    exact congrArg (fun q : ℚ => some (-q)) (rational_pointed whole fraction)
  | false =>
    have noSign : minus false ++ numeral whole fraction = numeral whole fraction := rfl
    simp only [denoted?, Bool.false_eq_true, if_false, noSign, split, read]
    exact congrArg some (rational_pointed whole fraction)

/-- How many hundredths a number is rounded to, without its sign. -/
def roundedHundredths (x : Float) : Nat :=
  Rounding.halfEven (units x * 100) one

/-- The digits in front of the point in a count of hundredths. -/
def wholeDigits (n : Nat) : List Char :=
  (zeroFilled 3 (digits n)).take ((zeroFilled 3 (digits n)).length - 2)

/-- The two digits behind it. -/
def placeDigits (n : Nat) : List Char :=
  (zeroFilled 3 (digits n)).drop ((zeroFilled 3 (digits n)).length - 2)

theorem digits_append_digits (n : Nat) : wholeDigits n ++ placeDigits n = zeroFilled 3 (digits n) :=
  List.take_append_drop _ _

theorem three_le_length_zeroFilled (ds : List Char) : 3 ≤ (zeroFilled 3 ds).length := by
  rw [zeroFilled, List.length_append, List.length_replicate]
  omega

theorem length_placeDigits (n : Nat) : (placeDigits n).length = 2 := by
  have long := three_le_length_zeroFilled (digits n)
  rw [placeDigits, List.length_drop]
  omega

theorem isDigit_of_mem_zeroFilled {n : Nat} {c : Char} (member : c ∈ zeroFilled 3 (digits n)) :
    c.isDigit = true := by
  rcases List.mem_append.mp member with zero | digit
  · rw [List.eq_of_mem_replicate zero]
    decide
  · exact digit_of_mem_digits digit

theorem isNumeral_hundredths (n : Nat) : IsNumeral (wholeDigits n) (placeDigits n) where
  whole_ne_nil := by
    have long := three_le_length_zeroFilled (digits n)
    rw [wholeDigits, ← List.length_pos_iff, List.length_take]
    omega
  whole_digit c member := isDigit_of_mem_zeroFilled (List.mem_of_mem_take member)
  fraction_digit c member := isDigit_of_mem_zeroFilled (List.mem_of_mem_drop member)

theorem pointed_hundredths (n : Nat) : pointed (wholeDigits n) (placeDigits n) = n / 100 := by
  rw [pointed, digits_append_digits, zeroFilled, ofDigits_zeros_append, ofDigits_digits,
    length_placeDigits]
  norm_num

theorem placeDigits_ne_nil (n : Nat) : placeDigits n ≠ [] := by
  rw [← List.length_pos_iff, length_placeDigits]
  decide

/-- The text of a finite number with two places. -/
theorem hundredths_eq {x : Float} (finite : x.isFinite = true) :
    hundredths x = minus (isNegative x) ++
      (wholeDigits (roundedHundredths x) ++ '.' :: placeDigits (roundedHundredths x)) := by
  rw [hundredths, signed, isNaN_of_isFinite finite, isInf_eq_false_of_isFinite finite]
  rfl

/-- The hundredths that a number is rounded to, with its sign. -/
def signedHundredths (x : Float) : ℤ :=
  if isNegative x then -(roundedHundredths x : ℤ) else roundedHundredths x

theorem denoted?_hundredths {x : Float} (finite : x.isFinite = true) :
    denoted? (hundredths x) = some ((signedHundredths x : ℚ) / 100) := by
  rw [hundredths_eq finite, ← numeral_of_ne_nil (placeDigits_ne_nil _),
    denoted?_numeral _ (isNumeral_hundredths _), pointed_hundredths, signedHundredths]
  split
  · rw [Int.cast_neg, Int.cast_natCast, neg_div]
  · rw [Int.cast_natCast]

/-- What the text with two places denotes is at most half a hundredth away from the number. -/
theorem abs_signedHundredths_sub_le (x : Float) :
    |(signedHundredths x : ℚ) / 100 - Literal.value x| ≤ 1 / 200 := by
  have near : |(roundedHundredths x : ℚ) / 100 - units x / one| ≤ 1 / 200 :=
    Rounding.abs_halfEven_hundredths_sub_le (units x) Binary64.one_pos
  rw [signedHundredths, Literal.value, signedUnits]
  split
  · rw [Int.cast_neg, Int.cast_neg, Int.cast_natCast, Int.cast_natCast, neg_div, neg_div,
      ← neg_sub', abs_neg]
    exact near
  · rw [Int.cast_natCast, Int.cast_natCast]
    exact near

theorem signedHundredths_neg_iff (x : Float) :
    signedHundredths x < 0 ↔ isNegative x = true ∧ roundedHundredths x ≠ 0 := by
  rw [signedHundredths]
  generalize roundedHundredths x = n
  cases isNegative x with
  | true => simp [Nat.pos_iff_ne_zero]
  | false => simp

theorem natAbs_signedHundredths (x : Float) : (signedHundredths x).natAbs = roundedHundredths x := by
  rw [signedHundredths]
  split
  · rw [Int.natAbs_neg, Int.natAbs_natCast]
  · exact Int.natAbs_natCast _

end Decimal
end DomainColoring
