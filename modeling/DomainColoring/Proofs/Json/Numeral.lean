import DomainColoring.Json.Numeral
import DomainColoring.Proofs.Decimal.Text

/-!
# Numbers in JSON texts are read as they were written

A number ends where a text has something that cannot be part of it. The text of a finite number
is read to its parts; which number these parts are rounded to is not looked at.
-/

namespace DomainColoring

namespace Decimal.Shortest

/-- Zero is written without an exponent. -/
theorem exponent_of_eq_zero {x : Float} {tie : Tie} (finite : x.isFinite = true)
    (zero : (Shortest.of tie x).coefficient = 0) : (Shortest.of tie x).exponent = 0 := by
  by_cases none : Binary64.units x = 0
  · simp [Shortest.of, none]
  · have absoluteUnits : Binary64.units (Binary64.absolute x) = Binary64.units x :=
      (Binary64.units_ofUnits finite).2
    rw [← absoluteUnits, ← toFloat_of tie finite, Decimal.toFloat, if_pos zero] at none
    exact absurd (by decide) none

end Decimal.Shortest

namespace Json

open Decimal (IsNumeral)

variable {ds whole fraction rest : List Char} {n : Numeral}

/-- Nothing that can be part of a number stands in front of the text. -/
def EndsNumber (rest : List Char) : Prop :=
  ∀ c ∈ rest.head?, c.isDigit = false ∧ c ≠ '.' ∧ c ≠ 'e' ∧ c ≠ 'E'

namespace Numeral

/-- The point and the digits behind it, if there are any. -/
def fractionText : List Char → List Char
  | [] => []
  | digit :: more => '.' :: digit :: more

/-- The exponent with its mark and its sign, if there is one. -/
def exponentText : Option Int → List Char
  | none => []
  | some exponent => 'e' :: Decimal.Layout.signedInteger exponent

/-- A number as it is written. -/
def text (n : Numeral) : List Char :=
  (if n.negative then ['-'] else []) ++
    (n.whole ++ (fractionText n.fraction ++ exponentText n.exponent))

/-- The parts of a number are digits, and there is no needless zero in front. -/
structure IsProper (n : Numeral) : Prop where
  isNumeral : IsNumeral n.whole n.fraction
  noZero : n.whole = ['0'] ∨ n.whole.head? ≠ some '0'

theorem digits?_append (nonempty : ds ≠ []) (areDigits : ∀ c ∈ ds, c.isDigit = true)
    (ends : ∀ c ∈ rest.head?, c.isDigit = false) : digits? (ds ++ rest) = some (ds, rest) := by
  have noDigits : rest.takeWhile Char.isDigit = [] ∧ rest.dropWhile Char.isDigit = rest := by
    cases rest with
    | nil => exact ⟨rfl, rfl⟩
    | cons c more => simp [ends c rfl]
  rw [digits?, List.takeWhile_append_of_pos areDigits, List.dropWhile_append_of_pos areDigits,
    noDigits.1, noDigits.2, List.append_nil]
  cases ds with
  | nil => exact absurd rfl nonempty
  | cons digit more => rfl

theorem readWhole?_append (nonempty : whole ≠ []) (areDigits : ∀ c ∈ whole, c.isDigit = true)
    (noZero : whole = ['0'] ∨ whole.head? ≠ some '0')
    (ends : ∀ c ∈ rest.head?, c.isDigit = false) :
    readWhole? (whole ++ rest) = some (whole, rest) := by
  rw [readWhole?, digits?_append nonempty areDigits ends]
  split
  · next same =>
    obtain ⟨rfl, -⟩ := Prod.mk.inj (Option.some.inj same)
    rcases noZero with alone | other
    · cases alone
    · exact absurd rfl other
  · rfl

theorem readFraction?_append (areDigits : ∀ c ∈ fraction, c.isDigit = true)
    (ends : ∀ c ∈ rest.head?, c.isDigit = false ∧ c ≠ '.') :
    readFraction? (fractionText fraction ++ rest) = some (fraction, rest) := by
  cases fraction with
  | nil =>
    change readFraction? rest = some ([], rest)
    unfold readFraction?
    split
    · exact absurd rfl (ends '.' rfl).2
    · rfl
  | cons digit more =>
    exact digits?_append (List.cons_ne_nil digit more) areDigits fun c first => (ends c first).1

theorem readInteger?_append (exponent : Int) (ends : ∀ c ∈ rest.head?, c.isDigit = false) :
    readInteger? (Decimal.Layout.signedInteger exponent ++ rest) = some (exponent, rest) := by
  have read : digits? (Decimal.digits exponent.natAbs ++ rest) =
      some (Decimal.digits exponent.natAbs, rest) :=
    digits?_append (Decimal.digits_ne_nil _) (fun _ => Decimal.digit_of_mem_digits) ends
  by_cases negative : exponent < 0
  · have magnitude : -(exponent.natAbs : Int) = exponent := by omega
    simp only [readInteger?, Decimal.Layout.signedInteger, if_pos negative, List.cons_append, read,
      Option.map_some, Decimal.ofDigits_digits, if_true, magnitude]
  · have magnitude : (exponent.natAbs : Int) = exponent := by omega
    simp only [readInteger?, Decimal.Layout.signedInteger, if_neg negative, List.cons_append, read,
      Option.map_some, Decimal.ofDigits_digits, Bool.false_eq_true, if_false, magnitude]

theorem readExponent?_append (exponent : Option Int) (ends : EndsNumber rest) :
    readExponent? (exponentText exponent ++ rest) = some (exponent, rest) := by
  cases exponent with
  | none =>
    cases rest with
    | nil => rfl
    | cons c more =>
      obtain ⟨-, -, lower, upper⟩ := ends c rfl
      simp [exponentText, readExponent?, lower, upper]
  | some exponent =>
    have read := readInteger?_append exponent fun c first => (ends c first).1
    simp [exponentText, readExponent?, read]

/-- A number in front of a text that it ends at is read to its parts. -/
theorem read?_text (proper : n.IsProper) (ends : EndsNumber rest) :
    read? (n.text ++ rest) = some (n, rest) := by
  obtain ⟨negative, whole, fraction, exponent⟩ := n
  obtain ⟨⟨nonempty, wholeDigits, fractionDigits⟩, noZero⟩ := proper
  have exponentEnds : ∀ c ∈ (exponentText exponent ++ rest).head?, c.isDigit = false ∧ c ≠ '.' := by
    intro c first
    cases exponent with
    | none => exact ⟨(ends c first).1, (ends c first).2.1⟩
    | some exponent =>
      cases first
      decide
  have fractionEnds : ∀ c ∈ (fractionText fraction ++ (exponentText exponent ++ rest)).head?,
      c.isDigit = false := by
    intro c first
    cases fraction with
    | nil => exact (exponentEnds c first).1
    | cons digit more =>
      cases first
      decide
  have wholeRead := readWhole?_append nonempty wholeDigits noZero fractionEnds
  have fractionRead := readFraction?_append fractionDigits exponentEnds
  have exponentRead := readExponent?_append exponent ends
  cases negative with
  | true => simp [read?, text, wholeRead, fractionRead, exponentRead]
  | false =>
    obtain ⟨first, more, rfl, digit⟩ :=
      IsNumeral.exists_cons ⟨nonempty, wholeDigits, fractionDigits⟩
    have noSign : first ≠ '-' := by
      rintro rfl
      cases digit
    simp only [List.cons_append] at wholeRead
    simp [read?, text, noSign, wholeRead, fractionRead, exponentRead]

/-- The digits of a number that fits 64 bits are all taken. -/
theorem appendDigits_eq {significand : Nat} (fits : Nat.ofDigitChars 10 ds significand < 2 ^ 64) :
    appendDigits significand ds = (Nat.ofDigitChars 10 ds significand, []) := by
  induction ds generalizing significand with
  | nil => rfl
  | cons digit more inductionHypothesis =>
    rw [Nat.ofDigitChars_cons] at fits ⊢
    have grows : 10 * significand + (digit.toNat - '0'.toNat) ≤
        Nat.ofDigitChars 10 more (10 * significand + (digit.toNat - '0'.toNat)) := by
      rw [Nat.ofDigitChars_eq_ofDigitChars_zero]
      have power : 0 < 10 ^ more.length := Nat.pow_pos (by decide)
      exact Nat.le_add_right_of_le (Nat.le_mul_of_pos_left _ power)
    have next : Decimal.ofDigits [digit] + 10 * significand =
        10 * significand + (digit.toNat - '0'.toNat) := by
      simp [Decimal.ofDigits, Nat.add_comm]
    rw [appendDigits, next, Nat.pow_eq, if_pos (Nat.lt_of_le_of_lt grows fits)]
    exact inductionHypothesis fits

/-- A whole number without a sign. -/
def ofNat (value : Nat) : Numeral :=
  ⟨false, Decimal.digits value, [], none⟩

theorem text_ofNat (value : Nat) : (ofNat value).text = Decimal.digits value := by
  simp [text, ofNat, fractionText, exponentText]

theorem isProper_ofNat (value : Nat) : (ofNat value).IsProper := by
  refine ⟨⟨Decimal.digits_ne_nil value, fun _ => Decimal.digit_of_mem_digits, nofun⟩, ?_⟩
  by_cases zero : value = 0
  · subst zero
    exact .inl rfl
  · exact .inr (Decimal.head?_digits zero)

theorem value_ofNat (value : UInt64) : (ofNat value.toNat).value = .natural value := by
  have digits : Nat.ofDigitChars 10 (Decimal.digits value.toNat) 0 = value.toNat :=
    Decimal.ofDigits_digits value.toNat
  have taken : appendDigits 0 (Decimal.digits value.toNat) = (value.toNat, []) := by
    have fits : Nat.ofDigitChars 10 (Decimal.digits value.toNat) 0 < 2 ^ 64 := by
      rw [digits]
      exact value.toNat_lt
    rw [appendDigits_eq fits, digits]
  simp [Numeral.value, ofNat, taken, appendDigits]

/-- A decimal that is set out with a point always has digits behind it. -/
theorem positionalText_true (d : Decimal) (plainZero : d.coefficient = 0 → d.exponent = 0) :
    ∃ n : Numeral, n.negative = false ∧ n.IsProper ∧
      Decimal.Layout.positionalText true d = n.text := by
  obtain ⟨whole, fraction, isNumeral, text, -, noPoint, noZero⟩ := Decimal.exists_setOut d
  by_cases wholeNumber : 0 ≤ d.exponent
  · have zero : ∀ c ∈ ['0'], c.isDigit = true := by
      intro c member
      rw [List.mem_singleton.mp member]
      rfl
    refine ⟨⟨false, whole, ['0'], none⟩, rfl,
      ⟨⟨isNumeral.whole_ne_nil, isNumeral.whole_digit, zero⟩, noZero plainZero⟩, ?_⟩
    have withoutPoint : Decimal.Layout.positionalText false d =
        Decimal.digits d.coefficient ++ List.replicate d.exponent.toNat '0' := by
      simp [Decimal.Layout.positionalText, wholeNumber]
    have withPoint : Decimal.Layout.positionalText true d =
        Decimal.digits d.coefficient ++ List.replicate d.exponent.toNat '0' ++ ['.', '0'] := by
      simp [Decimal.Layout.positionalText, wholeNumber]
    rw [withPoint, ← withoutPoint, text, noPoint wholeNumber]
    rfl
  · refine ⟨⟨false, whole, fraction, none⟩, rfl, ⟨isNumeral, noZero plainZero⟩, ?_⟩
    have same : Decimal.Layout.positionalText true d = Decimal.Layout.positionalText false d := by
      simp [Decimal.Layout.positionalText, wholeNumber]
    rw [same, text]
    cases fraction <;> simp [Decimal.numeral, Numeral.text, fractionText, exponentText]

theorem exponentText_eq (d : Decimal) (nonzero : d.coefficient ≠ 0) :
    ∃ n : Numeral, n.negative = false ∧ n.IsProper ∧ Decimal.Layout.exponentText d = n.text := by
  have areDigits : ∀ c ∈ Decimal.digits d.coefficient, c.isDigit = true :=
    fun _ => Decimal.digit_of_mem_digits
  have noZero := Decimal.head?_digits nonzero
  obtain ⟨first, more, shape⟩ :=
    List.exists_cons_of_ne_nil (Decimal.digits_ne_nil d.coefficient)
  rw [shape] at areDigits noZero
  refine ⟨⟨false, [first], more, some (d.exponent + (more.length : Int))⟩, rfl,
    ⟨⟨List.cons_ne_nil first [], ?_, ?_⟩, .inr noZero⟩, ?_⟩
  · intro c member
    rw [List.mem_singleton.mp member]
    exact areDigits first List.mem_cons_self
  · exact fun c member => areDigits c (List.mem_cons_of_mem first member)
  · rw [Decimal.Layout.exponentText, shape]
    cases more <;> simp [Numeral.text, fractionText, exponentText]

/-- The text of a finite number is that of a numeral. -/
theorem chars_eq {x : Float} (finite : x.isFinite = true) :
    ∃ n : Numeral, n.IsProper ∧ Decimal.Layout.json.chars x = n.text := by
  have magnitude : ∃ n : Numeral, n.negative = false ∧ n.IsProper ∧
      Decimal.Layout.json.magnitudeText (Decimal.Shortest.of .toEven x) = n.text := by
    have plainZero : (Decimal.Shortest.of .toEven x).coefficient = 0 →
        (Decimal.Shortest.of .toEven x).exponent = 0 :=
      Decimal.Shortest.exponent_of_eq_zero finite
    simp only [Decimal.Layout.magnitudeText, Decimal.Layout.json]
    split
    · exact positionalText_true _ plainZero
    · next large => exact exponentText_eq _ fun zero => large (.inl zero)
  obtain ⟨n, unsigned, proper, text⟩ := magnitude
  refine ⟨{ n with negative := Binary64.isNegative x }, ⟨proper.isNumeral, proper.noZero⟩, ?_⟩
  rw [Decimal.Layout.chars_of_isFinite _ finite]
  change _ ++ Decimal.Layout.json.magnitudeText (Decimal.Shortest.of .toEven x) = _
  rw [text, Numeral.text, unsigned]
  rfl

end Numeral
end Json
end DomainColoring
