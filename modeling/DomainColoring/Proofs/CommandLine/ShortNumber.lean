import DomainColoring.CommandLine.Series
import DomainColoring.Proofs.Decimal.Hundredths

/-!
# Numbers written short

The short text of a number is its text with two places less the zeros at the end of the places, less
the point if no place is left, and less the sign of a zero. Zeros in front of the point stay, as the
point stands between them and the zeros that are dropped. So the short text denotes the same number
as the text with two places, and there is one short text for each number denoted.
-/

namespace DomainColoring.CommandLine

open Binary64 Decimal

section Dropping

variable (c : Char) (text : List Char)

theorem dropAtEnd_eq : dropAtEnd c text = text.rdropWhile (· = c) := rfl

theorem prefix_dropAtEnd : dropAtEnd c text <+: text :=
  List.rdropWhile_prefix _ text

/-- What is dropped are copies of the character. -/
theorem exists_replicate_dropped : ∃ count, text = dropAtEnd c text ++ List.replicate count c := by
  have copies : ∀ d ∈ text.rtakeWhile (· = c), d = c := by
    intro d member
    simpa using List.mem_rtakeWhile_imp member
  refine ⟨(text.rtakeWhile (· = c)).length, ?_⟩
  rw [← List.eq_replicate_of_mem copies, dropAtEnd_eq]
  exact (List.rdropWhile_append_rtakeWhile).symm

/-- All copies at the end are dropped. -/
theorem getLast?_dropAtEnd : (dropAtEnd c text).getLast? ≠ some c := by
  intro last
  have someText : dropAtEnd c text ≠ [] := by
    intro none
    rw [none] at last
    cases last
  have other := List.rdropWhile_last_not (· = c) text someText
  rw [List.getLast?_eq_some_getLast someText] at last
  exact other (decide_eq_true (Option.some.inj last))

variable {c text}

theorem dropAtEnd_of_getLast?_ne (other : text.getLast? ≠ some c) : dropAtEnd c text = text := by
  rw [dropAtEnd_eq, List.rdropWhile_eq_self_iff]
  intro someText same
  rw [List.getLast?_eq_some_getLast someText] at other
  exact other (congrArg some (by simpa using same))

theorem dropAtEnd_concat_self : dropAtEnd c (text ++ [c]) = dropAtEnd c text :=
  List.rdropWhile_concat_pos _ _ _ (by simp)

/-- Dropping stops at any other character. -/
theorem dropAtEnd_append_cons {mark : Char} (other : mark ≠ c) (front : List Char) :
    dropAtEnd c (front ++ mark :: text) = front ++ mark :: dropAtEnd c text := by
  -- Induction from the end, where the characters are dropped.
  induction text using List.reverseRecOn with
  | nil => exact List.rdropWhile_concat_neg _ _ _ (by simpa using other)
  | append_singleton text d inductionHypothesis =>
    rw [← List.cons_append, ← List.append_assoc]
    by_cases same : d = c
    · rw [same, dropAtEnd_concat_self, dropAtEnd_concat_self, inductionHypothesis]
    · rw [dropAtEnd_eq, dropAtEnd_eq, List.rdropWhile_concat_neg _ _ _ (by simpa using same),
        List.rdropWhile_concat_neg _ _ _ (by simpa using same)]
      simp

end Dropping

/-- The places of a count of hundredths without the zeros at their end. -/
def shortPlaces (n : Nat) : List Char :=
  dropAtEnd '0' (placeDigits n)

theorem isNumeral_short (n : Nat) : IsNumeral (wholeDigits n) (shortPlaces n) where
  whole_ne_nil := (isNumeral_hundredths n).whole_ne_nil
  whole_digit := (isNumeral_hundredths n).whole_digit
  fraction_digit c member :=
    (isNumeral_hundredths n).fraction_digit c ((prefix_dropAtEnd _ _).subset member)

/-- The places that are dropped do not count. -/
theorem pointed_short (n : Nat) : pointed (wholeDigits n) (shortPlaces n) = n / 100 := by
  obtain ⟨count, dropped⟩ := exists_replicate_dropped '0' (placeDigits n)
  rw [← pointed_append_zeros _ _ count, shortPlaces, ← dropped, pointed_hundredths]

section Ends

variable {whole fraction : List Char} (isNumeral : IsNumeral whole fraction) (front : List Char)
include isNumeral

/-- A numeral does not end in a point. -/
theorem getLast?_numeral_ne_point : (front ++ numeral whole fraction).getLast? ≠ some '.' := by
  have digit : ∀ {ds : List Char}, (∀ c ∈ ds, c.isDigit = true) → ds ≠ [] →
      ∀ ahead : List Char, (ahead ++ ds).getLast? ≠ some '.' := by
    intro ds digits someDigits ahead last
    rw [List.getLast?_append_of_ne_nil _ someDigits] at last
    have point := digits '.' (List.mem_of_getLast? last)
    cases point
  by_cases none : fraction = []
  · subst none
    exact digit isNumeral.whole_digit isNumeral.whole_ne_nil front
  · rw [numeral_of_ne_nil none]
    have shape : front ++ (whole ++ '.' :: fraction) = (front ++ whole ++ ['.']) ++ fraction := by
      simp
    rw [shape]
    exact digit isNumeral.fraction_digit none _

/-- What is left of digits and places after zeros and then points were dropped. -/
theorem dropAtEnd_text :
    dropAtEnd '.' (dropAtEnd '0' (front ++ (whole ++ '.' :: fraction))) =
      front ++ numeral whole (dropAtEnd '0' fraction) := by
  have kept : IsNumeral whole (dropAtEnd '0' fraction) :=
    ⟨isNumeral.whole_ne_nil, isNumeral.whole_digit,
      fun c member => isNumeral.fraction_digit c ((prefix_dropAtEnd _ _).subset member)⟩
  have noPoint := dropAtEnd_of_getLast?_ne (getLast?_numeral_ne_point kept front)
  rw [← List.append_assoc, dropAtEnd_append_cons (by decide)]
  by_cases none : dropAtEnd '0' fraction = []
  · rw [none] at noPoint ⊢
    rw [dropAtEnd_concat_self]
    exact noPoint
  · rw [numeral_of_ne_nil none] at noPoint ⊢
    rw [List.append_assoc]
    exact noPoint

end Ends

/-- The shortest text of a count of hundredths. -/
def shortText (n : ℤ) : List Char :=
  minus (decide (n < 0)) ++ numeral (wholeDigits n.natAbs) (shortPlaces n.natAbs)

theorem denoted?_shortText (n : ℤ) : denoted? (shortText n) = some ((n : ℚ) / 100) := by
  rw [shortText, denoted?_numeral _ (isNumeral_short _), pointed_short, Nat.cast_natAbs]
  by_cases negative : n < 0
  · rw [if_pos (decide_eq_true negative), abs_of_neg negative, Int.cast_neg, neg_div, neg_neg]
  · rw [if_neg (by simpa using negative), abs_of_nonneg (not_lt.mp negative)]

/-- Different counts have different texts. -/
theorem shortText_injective : Function.Injective shortText := by
  intro m n same
  have denoted := congrArg denoted? same
  rw [denoted?_shortText, denoted?_shortText, Option.some.injEq,
    div_left_inj' (by norm_num : (100 : ℚ) ≠ 0)] at denoted
  exact_mod_cast denoted

/-- No count is written as a zero with a sign. -/
theorem shortText_ne_minus_zero (n : ℤ) : shortText n ≠ ['-', '0'] := by
  intro same
  have signedZero : minus true ++ numeral (wholeDigits 0) (shortPlaces 0) = ['-', '0'] := by decide
  have zero := denoted?_numeral true (isNumeral_short 0)
  have denoted := congrArg denoted? same
  rw [denoted?_shortText, ← signedZero, zero, pointed_short, Option.some.injEq] at denoted
  have none : n = 0 := by simpa using denoted
  rw [none] at same
  exact absurd same (by decide)

theorem getLast?_shortText_ne_point (n : ℤ) : (shortText n).getLast? ≠ some '.' :=
  getLast?_numeral_ne_point (isNumeral_short _) _

/-- If there is a point, the last place is no zero. -/
theorem getLast?_shortText_ne_zero {n : ℤ} (point : '.' ∈ shortText n) :
    (shortText n).getLast? ≠ some '0' := by
  have somePlaces : shortPlaces n.natAbs ≠ [] := by
    intro none
    rw [shortText, none, List.mem_append] at point
    rcases point with sign | digit
    · revert sign
      cases decide (n < 0) <;> decide
    · have isDigit := (isNumeral_short n.natAbs).whole_digit '.' digit
      cases isDigit
  rw [shortText, numeral_of_ne_nil somePlaces, List.getLast?_append_of_ne_nil _ (by simp),
    ← List.singleton_append, ← List.append_assoc, List.getLast?_append_of_ne_nil _ somePlaces]
  exact getLast?_dropAtEnd '0' _

/-- The short text of a finite number is that of the hundredths that the number is rounded to. -/
theorem shortNumber_eq {x : Float} (finite : x.isFinite = true) :
    shortNumber x = shortText (signedHundredths x) := by
  have text : dropAtEnd '.' (dropAtEnd '0' (hundredths x)) = minus (isNegative x) ++
      numeral (wholeDigits (roundedHundredths x)) (shortPlaces (roundedHundredths x)) := by
    rw [hundredths_eq finite]
    exact dropAtEnd_text (isNumeral_hundredths _) _
  have negative := signedHundredths_neg_iff x
  have short : shortText (signedHundredths x) = minus (decide (signedHundredths x < 0)) ++
      numeral (wholeDigits (roundedHundredths x)) (shortPlaces (roundedHundredths x)) := by
    rw [shortText, natAbs_signedHundredths]
  rw [shortNumber]
  simp only [text]
  by_cases zero : roundedHundredths x = 0
  · -- Either zero is written without sign.
    have unsigned : ¬ signedHundredths x < 0 := fun less => (negative.mp less).2 zero
    rw [short, zero, decide_eq_false unsigned]
    cases isNegative x <;> decide
  · have sign : decide (signedHundredths x < 0) = isNegative x := by
      rw [Bool.eq_iff_iff, decide_eq_true_iff, negative]
      exact and_iff_left zero
    rw [← sign, ← short, if_neg (shortText_ne_minus_zero _)]

/-- The text of a finite number with two places is digits, a point and two digits behind a sign. The
short text has the same digits in front of the point, of the places those that are left without the
zeros at their end, and a sign if the number that is denoted is negative; both texts denote the same
number, which is at most half a hundredth away. The short text is no zero with a sign, ends in no
point, and in no zero behind a point. Two finite numbers have the same short text exactly if their
texts with two places denote the same number. -/
theorem shortNumber_canonical {v : Float} (finite : v.isFinite = true) :
    (∃ (whole places kept : List Char) (number : ℚ),
      IsNumeral whole places ∧ places.length = 2 ∧
      hundredths v = minus (isNegative v) ++ (whole ++ '.' :: places) ∧
      denoted? (hundredths v) = some number ∧ |number - Literal.value v| ≤ 1 / 200 ∧
      shortNumber v = minus (decide (number < 0)) ++ numeral whole kept ∧ kept <+: places ∧
      denoted? (shortNumber v) = some number) ∧
    shortNumber v ≠ ['-', '0'] ∧
    (shortNumber v).getLast? ≠ some '.' ∧
    ('.' ∈ shortNumber v → (shortNumber v).getLast? ≠ some '0') ∧
    ∀ w : Float, w.isFinite = true →
      (shortNumber v = shortNumber w ↔ denoted? (hundredths v) = denoted? (hundredths w)) := by
  refine ⟨⟨wholeDigits (roundedHundredths v), placeDigits (roundedHundredths v),
    shortPlaces (roundedHundredths v), (signedHundredths v : ℚ) / 100, isNumeral_hundredths _,
    length_placeDigits _, hundredths_eq finite, denoted?_hundredths finite,
    abs_signedHundredths_sub_le v, ?_, prefix_dropAtEnd _ _, ?_⟩, ?_, ?_, ?_, ?_⟩
  · have sign : (signedHundredths v : ℚ) / 100 < 0 ↔ signedHundredths v < 0 := by
      rw [div_lt_iff₀ (by norm_num), zero_mul, Int.cast_lt_zero]
    rw [shortNumber_eq finite, shortText, natAbs_signedHundredths, decide_eq_decide.mpr sign]
  · rw [shortNumber_eq finite, denoted?_shortText]
  · rw [shortNumber_eq finite]
    exact shortText_ne_minus_zero _
  · rw [shortNumber_eq finite]
    exact getLast?_shortText_ne_point _
  · rw [shortNumber_eq finite]
    exact getLast?_shortText_ne_zero
  · intro w finiteToo
    rw [shortNumber_eq finite, shortNumber_eq finiteToo, shortText_injective.eq_iff,
      denoted?_hundredths finite, denoted?_hundredths finiteToo, Option.some.injEq,
      div_left_inj' (by norm_num : (100 : ℚ) ≠ 0), Int.cast_inj]

/-- Zeros in front of the point are kept. -/
example : shortNumber 100.0 = ['1', '0', '0'] := by decide +kernel

/-- A negative number that is rounded to zero, and zero: the texts with two places differ. -/
theorem shortNumber_canonical_zero :
    (-0.004 : Float).isFinite = true ∧ (0.0 : Float).isFinite = true ∧
    hundredths (-0.004) = ['-', '0', '.', '0', '0'] ∧ hundredths 0.0 = ['0', '.', '0', '0'] ∧
    shortNumber (-0.004) ≠ ['-', '0'] ∧ shortNumber (-0.004) = shortNumber 0.0 ∧
    denoted? ['-', '0', '.', '0', '0'] = denoted? ['0', '.', '0', '0'] := by
  have negative : hundredths (-0.004) = ['-', '0', '.', '0', '0'] := by decide +kernel
  have positive : hundredths 0.0 = ['0', '.', '0', '0'] := by decide +kernel
  have same : shortNumber (-0.004) = shortNumber 0.0 := by decide +kernel
  obtain ⟨-, unsigned, -, -, canonical⟩ :=
    shortNumber_canonical (show (-0.004 : Float).isFinite = true by decide)
  have denoted := (canonical 0.0 (by decide)).mp same
  rw [negative, positive] at denoted
  exact ⟨by decide, by decide, negative, positive, unsigned, same, denoted⟩

end DomainColoring.CommandLine
