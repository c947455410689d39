import DomainColoring.Decimal.Layout
import DomainColoring.Decimal.Reader
import DomainColoring.Proofs.Decimal.Value

/-!
# Plain numbers read back

The plain text of a finite number is digits, with a point and more digits behind it or not, and
a minus sign in front of it or not. It has no exponent, and reading it gives the number back,
bit by bit. Other layouts, with exponents, are not looked at.
-/

namespace DomainColoring.Decimal

open Binary64

/-- Digits, and behind a point more of them if there are any. -/
def numeral (whole fraction : List Char) : List Char :=
  match fraction with
  | [] => whole
  | digit :: more => whole ++ '.' :: digit :: more

theorem numeral_of_ne_nil {whole fraction : List Char} (more : fraction ≠ []) :
    numeral whole fraction = whole ++ '.' :: fraction := by
  cases fraction with
  | nil => exact absurd rfl more
  | cons digit rest => rfl

/-- There are digits in front of the point, and nothing but digits on both sides. -/
structure IsNumeral (whole fraction : List Char) : Prop where
  whole_ne_nil : whole ≠ []
  whole_digit : ∀ c ∈ whole, c.isDigit = true
  fraction_digit : ∀ c ∈ fraction, c.isDigit = true

theorem ofDigits_eq (ds : List Char) : ofDigits ds = Nat.ofDigitChars 10 ds 0 := rfl

theorem ofDigits_digits (n : Nat) : ofDigits (digits n) = n :=
  Nat.ofDigitChars_ten_toDigits

theorem digit_of_mem_digits {n : Nat} {c : Char} (member : c ∈ digits n) : c.isDigit = true :=
  Nat.isDigit_of_mem_toDigits (by decide) (by decide) member

theorem digits_ne_nil (n : Nat) : digits n ≠ [] :=
  Nat.toDigits_ne_nil

/-- The digits of a number other than zero do not begin with zero. -/
theorem head?_digits {n : Nat} (nonzero : n ≠ 0) : (digits n).head? ≠ some '0' := by
  induction n using Nat.strongRecOn with
  | ind n inductionHypothesis =>
    by_cases small : n < 10
    · have single : ∀ digit < 10, digit ≠ 0 → some (Nat.digitChar digit) ≠ some '0' := by decide
      rw [digits, Nat.toDigits_of_lt_base small, List.head?_cons]
      exact single n small nonzero
    · have large : 10 ≤ n := Nat.le_of_not_lt small
      have shorter := inductionHypothesis (n / 10) (by omega) (by omega)
      obtain ⟨first, more, shape⟩ := List.exists_cons_of_ne_nil (digits_ne_nil (n / 10))
      rw [digits] at shape shorter
      rw [digits, Nat.toDigits_of_base_le (by decide) large, shape]
      rwa [shape] at shorter

/-- Zeros in front of digits do not count. -/
theorem ofDigits_zeros_append (count : Nat) (ds : List Char) :
    ofDigits (List.replicate count '0' ++ ds) = ofDigits ds := by
  rw [ofDigits_eq, Nat.ofDigitChars_append, Nat.ofDigitChars_replicate_zero, Nat.mul_zero]
  rfl

/-- Each zero behind digits multiplies them by ten. -/
theorem ofDigits_append_zeros (count : Nat) (ds : List Char) :
    ofDigits (ds ++ List.replicate count '0') = ofDigits ds * 10 ^ count := by
  rw [ofDigits_eq, Nat.ofDigitChars_append, Nat.ofDigitChars_replicate_zero, Nat.mul_comm]
  rfl

/-- The digits on both sides of the point, when a decimal is set out with one, are a numeral with its
value. There is no point if the decimal is written as a whole number, and no needless zero in front
if that of zero is plain. -/
structure SetOut (d : Decimal) (whole fraction : List Char) : Prop where
  isNumeral : IsNumeral whole fraction
  text : Layout.positionalText false d = numeral whole fraction
  value : toFloat ⟨ofDigits (whole ++ fraction), -(fraction.length : Int)⟩ = d.toFloat
  noPoint : 0 ≤ d.exponent → fraction = []
  noZero : (d.coefficient = 0 → d.exponent = 0) → whole = ['0'] ∨ whole.head? ≠ some '0'

theorem setOut_whole (c zeros : Nat) :
    SetOut ⟨c, zeros⟩ (digits c ++ List.replicate zeros '0') [] where
  isNumeral := by
    refine ⟨by simp [digits_ne_nil], ?_, nofun⟩
    intro d member
    rcases List.mem_append.mp member with leading | zero
    · exact digit_of_mem_digits leading
    · rw [List.eq_of_mem_replicate zero]
      decide
  text := by simp [Layout.positionalText, numeral]
  value := by
    rw [List.append_nil, ofDigits_append_zeros, ofDigits_digits]
    exact toFloat_whole c zeros
  noPoint _ := rfl
  noZero plainZero := by
    by_cases zero : c = 0
    · have none : zeros = 0 := Int.ofNat_eq_zero.mp (plainZero zero)
      rw [zero, none]
      exact .inl rfl
    · right
      rw [List.head?_append_of_ne_nil _ (digits_ne_nil c)]
      exact head?_digits zero

/-- With the point between two digits. -/
theorem setOut_between {c places : Nat} (somePlaces : 0 < places)
    (long : places < (digits c).length) :
    SetOut ⟨c, -(places : Int)⟩ ((digits c).take ((digits c).length - places))
      ((digits c).drop ((digits c).length - places)) := by
  have rest : ((digits c).drop ((digits c).length - places)).length = places := by
    rw [List.length_drop]
    omega
  refine ⟨⟨?_, ?_, ?_⟩, ?_, ?_, ?_, ?_⟩
  · intro none
    have length := congrArg List.length none
    rw [List.length_take, List.length_nil] at length
    omega
  · exact fun d member => digit_of_mem_digits (List.mem_of_mem_take member)
  · exact fun d member => digit_of_mem_digits (List.mem_of_mem_drop member)
  · have someFraction : (digits c).drop ((digits c).length - places) ≠ [] := by
      rw [← List.length_pos_iff, rest]
      exact somePlaces
    rw [numeral_of_ne_nil someFraction]
    simp [Layout.positionalText, long]
    omega
  · rw [List.take_append_drop, rest, ofDigits_digits]
  · intro whole
    dsimp only at whole
    omega
  · intro plainZero
    have nonzero : c ≠ 0 := by
      intro zero
      have none := plainZero zero
      dsimp only at none
      omega
    right
    rw [List.head?_take, if_neg (by omega)]
    exact head?_digits nonzero

/-- With zeros between the point and the digits. -/
theorem setOut_below {c places : Nat} (somePlaces : 0 < places)
    (short : (digits c).length ≤ places) :
    SetOut ⟨c, -(places : Int)⟩ ['0']
      (List.replicate (places - (digits c).length) '0' ++ digits c) := by
  refine ⟨⟨nofun, ?_, ?_⟩, ?_, ?_, ?_, fun _ => .inl rfl⟩
  · intro d member
    rw [List.mem_singleton.mp member]
    decide
  · intro d member
    rcases List.mem_append.mp member with zero | leading
    · rw [List.eq_of_mem_replicate zero]
      decide
    · exact digit_of_mem_digits leading
  · rw [numeral_of_ne_nil (by simp [digits_ne_nil])]
    simp [Layout.positionalText, Nat.not_lt.mpr short]
    omega
  · have zeros : ['0'] ++ (List.replicate (places - (digits c).length) '0' ++ digits c) =
        List.replicate (places - (digits c).length + 1) '0' ++ digits c := by
      rw [List.replicate_succ]
      rfl
    have length : (List.replicate (places - (digits c).length) '0' ++ digits c).length =
        places := by
      rw [List.length_append, List.length_replicate]
      omega
    rw [zeros, ofDigits_zeros_append, ofDigits_digits, length]
  · intro whole
    dsimp only at whole
    omega

theorem exists_setOut (d : Decimal) : ∃ whole fraction, SetOut d whole fraction := by
  obtain ⟨c, e⟩ := d
  by_cases wholeNumber : 0 ≤ e
  · obtain ⟨zeros, rfl⟩ := Int.eq_ofNat_of_zero_le wholeNumber
    exact ⟨_, _, setOut_whole c zeros⟩
  · obtain ⟨places, rfl⟩ : ∃ places : Nat, e = -(places : Int) := ⟨(-e).toNat, by omega⟩
    have somePlaces : 0 < places := by omega
    by_cases long : places < (digits c).length
    · exact ⟨_, _, setOut_between somePlaces long⟩
    · exact ⟨_, _, setOut_below somePlaces (Nat.le_of_not_lt long)⟩

section Reading

variable {whole fraction : List Char} (isNumeral : IsNumeral whole fraction)
include isNumeral

theorem IsNumeral.exists_cons : ∃ first more, whole = first :: more ∧ first.isDigit = true := by
  cases whole with
  | nil => exact absurd rfl isNumeral.whole_ne_nil
  | cons first more => exact ⟨first, more, rfl, isNumeral.whole_digit first List.mem_cons_self⟩

theorem numeral_eq_cons : ∃ first more, numeral whole fraction = first :: more ∧
    first.isDigit = true := by
  obtain ⟨first, more, rfl, digit⟩ := isNumeral.exists_cons
  cases fraction with
  | nil => exact ⟨first, more, rfl, digit⟩
  | cons d rest => exact ⟨first, _, rfl, digit⟩

/-- Digits end where a text has something that is neither a digit nor a point. -/
theorem readUnsigned?_numeral (rest : List Char)
    (stops : ∀ c ∈ rest.head?, c.isDigit = false ∧ c ≠ '.') :
    readUnsigned? (numeral whole fraction ++ rest) =
      (readExponent? rest).map fun exponent =>
        ⟨ofDigits (whole ++ fraction), exponent - fraction.length⟩ := by
  have someDigit : ¬ whole ++ fraction = [] := by simp [isNumeral.whole_ne_nil]
  have noDigits : rest.takeWhile Char.isDigit = [] ∧ rest.dropWhile Char.isDigit = rest := by
    cases rest with
    | nil => exact ⟨rfl, rfl⟩
    | cons c more =>
      have noDigit := (stops c rfl).1
      simp [noDigit]
  by_cases point : fraction = []
  · subst point
    have wholeTaken : (whole ++ rest).takeWhile Char.isDigit = whole := by
      rw [List.takeWhile_append_of_pos isNumeral.whole_digit, noDigits.1, List.append_nil]
    have wholeDropped : (whole ++ rest).dropWhile Char.isDigit = rest := by
      rw [List.dropWhile_append_of_pos isNumeral.whole_digit, noDigits.2]
    simp only [readUnsigned?, numeral, wholeTaken, wholeDropped]
    split
    · exact absurd rfl (stops '.' rfl).2
    · rw [if_neg someDigit]
  · have text : numeral whole fraction ++ rest = whole ++ ('.' :: (fraction ++ rest)) := by
      rw [numeral_of_ne_nil point]
      simp
    have wholeTaken : (whole ++ '.' :: (fraction ++ rest)).takeWhile Char.isDigit = whole := by
      rw [List.takeWhile_append_of_pos isNumeral.whole_digit]
      simp
    have wholeDropped : (whole ++ '.' :: (fraction ++ rest)).dropWhile Char.isDigit =
        '.' :: (fraction ++ rest) := by
      rw [List.dropWhile_append_of_pos isNumeral.whole_digit]
      rfl
    have fractionTaken : (fraction ++ rest).takeWhile Char.isDigit = fraction := by
      rw [List.takeWhile_append_of_pos isNumeral.fraction_digit, noDigits.1, List.append_nil]
    have fractionDropped : (fraction ++ rest).dropWhile Char.isDigit = rest := by
      rw [List.dropWhile_append_of_pos isNumeral.fraction_digit, noDigits.2]
    simp only [readUnsigned?, text, wholeTaken, wholeDropped, fractionTaken, fractionDropped,
      if_neg someDigit]

omit isNumeral in
theorem toLower_of_isDigit {c : Char} (digit : c.isDigit = true) : c.toLower = c := by
  simp only [Char.isDigit, Bool.and_eq_true, decide_eq_true_eq] at digit
  have small : ¬ c.val ≥ 65 := fun large =>
    absurd (UInt32.le_trans large digit.2) (by decide)
  simp [Char.toLower, small]

/-- What begins with a digit is no word. -/
theorem readWord?_numeral (rest : List Char) :
    readWord? (numeral whole fraction ++ rest) = none := by
  obtain ⟨first, more, text, digit⟩ := numeral_eq_cons isNumeral
  have letters : first ≠ 'i' ∧ first ≠ 'n' := by
    constructor <;> rintro rfl <;> cases digit
  simp [readWord?, text, toLower_of_isDigit digit, letters]

theorem splitSign_numeral (rest : List Char) :
    splitSign (numeral whole fraction ++ rest) = (false, numeral whole fraction ++ rest) := by
  obtain ⟨first, more, text, digit⟩ := numeral_eq_cons isNumeral
  rw [text, List.cons_append]
  unfold splitSign
  split
  · next same =>
    cases same
    cases digit
  · next same =>
    cases same
    cases digit
  · rfl

/-- A numeral is read with its sign. -/
theorem readFinite?_numeral {value : Float}
    (valued : toFloat ⟨ofDigits (whole ++ fraction), -(fraction.length : Int)⟩ = value) :
    readFinite? (numeral whole fraction) = if value.isFinite then some value else none := by
  have sign := splitSign_numeral isNumeral []
  have read := readUnsigned?_numeral isNumeral [] nofun
  rw [List.append_nil] at sign read
  simp [readFinite?, read?, sign, read, readExponent?, withSign, valued, Option.filter]

theorem readFinite?_minus_numeral {value : Float}
    (valued : toFloat ⟨ofDigits (whole ++ fraction), -(fraction.length : Int)⟩ = value) :
    readFinite? ('-' :: numeral whole fraction) =
      if (-value).isFinite then some (-value) else none := by
  have read := readUnsigned?_numeral isNumeral [] nofun
  rw [List.append_nil] at read
  simp [readFinite?, read?, splitSign, read, readExponent?, withSign, valued, Option.filter]

/-- With the imaginary unit behind it, a numeral is no real number. -/
theorem readFinite?_numeral_unit : readFinite? (numeral whole fraction ++ ['i']) = none := by
  have sign := splitSign_numeral isNumeral ['i']
  have read := readUnsigned?_numeral isNumeral ['i'] (by
    rintro c same
    cases same
    decide)
  have word := readWord?_numeral isNumeral ['i']
  simp [readFinite?, read?, sign, read, word, readExponent?]

theorem readFinite?_minus_numeral_unit :
    readFinite? ('-' :: (numeral whole fraction ++ ['i'])) = none := by
  have read := readUnsigned?_numeral isNumeral ['i'] (by
    rintro c same
    cases same
    decide)
  have word := readWord?_numeral isNumeral ['i']
  simp [readFinite?, read?, splitSign, read, word, readExponent?]

end Reading

/-- The sign that is written in front of a number. -/
def signText (x : Float) : List Char :=
  if isNegative x then ['-'] else []

theorem Layout.chars_of_isFinite (layout : Layout) {x : Float} (finite : x.isFinite = true) :
    layout.chars x = signText x ++ layout.magnitudeText (Shortest.of layout.tie x) := by
  rw [chars, isNaN_of_isFinite finite, isInf_eq_false_of_isFinite finite,
    if_neg Bool.false_ne_true, if_neg Bool.false_ne_true, signText]

/-- The plain text of a finite number is the numeral of its magnitude behind its sign. -/
theorem plain_eq {x : Float} (finite : x.isFinite = true) :
    ∃ whole fraction, IsNumeral whole fraction ∧
      plain x = signText x ++ numeral whole fraction ∧
      toFloat ⟨ofDigits (whole ++ fraction), -(fraction.length : Int)⟩ = absolute x := by
  obtain ⟨whole, fraction, isSetOut⟩ := exists_setOut (Shortest.of .up x)
  refine ⟨whole, fraction, isSetOut.isNumeral, ?_,
    isSetOut.value.trans (Shortest.toFloat_of .up finite)⟩
  rw [← isSetOut.text, plain, Layout.chars_of_isFinite Layout.plain finite]
  rfl

/-- Reading the plain text of a finite number gives the number back. -/
theorem readFinite?_plain {x : Float} (finite : x.isFinite = true) :
    readFinite? (plain x) = some x := by
  obtain ⟨whole, fraction, isNumeral, text, value⟩ := plain_eq finite
  have signed := withSign_absolute finite
  rw [text, signText]
  cases negative : isNegative x with
  | true =>
    rw [negative, withSign, if_pos rfl] at signed
    rw [if_pos rfl, List.singleton_append, readFinite?_minus_numeral isNumeral value, signed,
      if_pos finite]
  | false =>
    rw [negative] at signed
    change absolute x = x at signed
    rw [signed] at value
    change readFinite? (numeral whole fraction) = some x
    rw [readFinite?_numeral isNumeral value, if_pos finite]

theorem mem_numeral {whole fraction : List Char} (isNumeral : IsNumeral whole fraction) {c : Char}
    (member : c ∈ numeral whole fraction) : c = '.' ∨ c.isDigit = true := by
  by_cases point : fraction = []
  · subst point
    exact .inr (isNumeral.whole_digit c member)
  · rw [numeral_of_ne_nil point, List.mem_append, List.mem_cons] at member
    rcases member with inWhole | isPoint | inFraction
    · exact .inr (isNumeral.whole_digit c inWhole)
    · exact .inl isPoint
    · exact .inr (isNumeral.fraction_digit c inFraction)

/-- The characters of plain numbers. -/
theorem mem_plain {x : Float} (finite : x.isFinite = true) {c : Char} (member : c ∈ plain x) :
    c = '-' ∨ c = '.' ∨ c.isDigit = true := by
  obtain ⟨whole, fraction, isNumeral, text, -⟩ := plain_eq finite
  rw [text, List.mem_append] at member
  rcases member with sign | inNumeral
  · left
    unfold signText at sign
    split at sign
    · exact List.mem_singleton.mp sign
    · cases sign
  · exact .inr (mem_numeral isNumeral inNumeral)

/-- What is written for the numbers that are not finite. -/
theorem plain_of_not_isFinite {x : Float} (exceptional : x.isFinite = false) :
    plain x = ['N', 'a', 'N'] ∨ plain x = ['i', 'n', 'f'] ∨ plain x = ['-', 'i', 'n', 'f'] := by
  simp only [plain, Layout.chars, Layout.plain]
  rcases isNaN_or_isInf exceptional with noNumber | infinite
  · rw [if_pos noNumber]
    exact .inl rfl
  · have number : x.isNaN = false := by
      have noFraction := ((isInf_iff x).mp infinite).2
      rw [← Bool.not_eq_true, isNaN_iff]
      exact fun both => both.2 noFraction
    rw [number, if_neg Bool.false_ne_true, if_pos infinite, if_pos trivial]
    split
    · exact .inr (.inr rfl)
    · exact .inr (.inl rfl)

/-- What is written for the numbers that are not finite is a word. -/
theorem mem_plain_of_not_isFinite {x : Float} (exceptional : x.isFinite = false) {c : Char}
    (member : c ∈ plain x) : c = '-' ∨ c.isAlpha = true := by
  rcases plain_of_not_isFinite exceptional with text | text | text <;>
    simp only [text, List.mem_cons, List.not_mem_nil, or_false] at member
  · rcases member with rfl | rfl | rfl <;> decide
  · rcases member with rfl | rfl | rfl <;> decide
  · rcases member with rfl | rfl | rfl | rfl <;> decide

/-- The words are read as numbers, but not as finite ones. -/
theorem readFinite?_plain_of_not_isFinite {x : Float} (exceptional : x.isFinite = false) :
    readFinite? (plain x) = none := by
  rcases plain_of_not_isFinite exceptional with text | text | text <;> rw [text] <;> rfl

/-- With the imaginary unit behind it, no plain text is that of a real number. -/
theorem readFinite?_plain_unit (x : Float) : readFinite? (plain x ++ ['i']) = none := by
  cases finite : x.isFinite with
  | false =>
    rcases plain_of_not_isFinite finite with text | text | text <;> rw [text] <;> rfl
  | true =>
    obtain ⟨whole, fraction, isNumeral, text, -⟩ := plain_eq finite
    rw [text, signText]
    split
    · exact readFinite?_minus_numeral_unit isNumeral
    · exact readFinite?_numeral_unit isNumeral

end DomainColoring.Decimal
