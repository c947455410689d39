import DomainColoring.ComplexNumber.Literal
import DomainColoring.Proofs.Decimal.Text

/-!
# Reading written literals

Each form of a literal reads back when its parts are finite. In an expression the minus sign in
front of a real or imaginary literal is an operator, and only what stands behind it is a
literal; `reading` says what this comes to.
-/

namespace DomainColoring.Literal

open Decimal Binary64

/-- A numeral is a real literal. -/
theorem read?_numeral {whole fraction : List Char} (isNumeral : IsNumeral whole fraction)
    {value : Float} (finite : value.isFinite = true)
    (valued : toFloat ⟨ofDigits (whole ++ fraction), -(fraction.length : Int)⟩ = value) :
    read? (numeral whole fraction) = some ⟨value, 0.0⟩ := by
  have real := readFinite?_numeral isNumeral valued
  rw [if_pos finite] at real
  simp [read?, real]

/-- With the unit behind it, the text of a coefficient is read as a number. -/
theorem readImaginary?_concat {coefficient : List Char} (written : coefficient ≠ [])
    (noPlus : coefficient ≠ ['+']) (noMinus : coefficient ≠ ['-']) :
    readImaginary? (coefficient ++ ['i']) = readFinite? coefficient := by
  rw [readImaginary?, if_pos List.getLast?_concat, List.dropLast_concat]
  split
  · exact absurd rfl written
  · exact absurd rfl noPlus
  · exact absurd rfl noMinus
  · rfl

/-- A numeral with the unit behind it is an imaginary literal. -/
theorem read?_numeral_unit {whole fraction : List Char} (isNumeral : IsNumeral whole fraction)
    {value : Float} (finite : value.isFinite = true)
    (valued : toFloat ⟨ofDigits (whole ++ fraction), -(fraction.length : Int)⟩ = value) :
    read? (numeral whole fraction ++ ['i']) = some ⟨0.0, value⟩ := by
  have notReal := readFinite?_numeral_unit isNumeral
  have real := readFinite?_numeral isNumeral valued
  rw [if_pos finite] at real
  obtain ⟨first, more, text, digit⟩ := numeral_eq_cons isNumeral
  have noSign : first ≠ '+' ∧ first ≠ '-' := by
    constructor <;> rintro rfl <;> cases digit
  have imaginary : readImaginary? (numeral whole fraction ++ ['i']) = some value := by
    rw [← real]
    apply readImaginary?_concat
    · simp [text]
    · simp [text, noSign.1]
    · simp [text, noSign.2]
  simp [read?, notReal, imaginary]

/-- The unit alone is a literal. -/
theorem read?_unit : read? ['i'] = some ⟨0.0, 1.0⟩ := by
  have notReal : readFinite? ['i'] = none := by
    simp [readFinite?, Decimal.read?, splitSign, readUnsigned?, readWord?]
  simp [read?, notReal, readImaginary?]

/-- White space is taken away only where there is some. -/
theorem trim_eq {text : List Char} (solid : ∀ c ∈ text, Text.isBlank c = false) :
    Text.trim text = text := by
  have kept : ∀ part : List Char, (∀ c ∈ part, Text.isBlank c = false) →
      part.dropWhile Text.isBlank = part := by
    intro part solidPart
    cases part with
    | nil => rfl
    | cons c rest =>
      rw [List.dropWhile_cons_of_neg]
      rw [solidPart c List.mem_cons_self]
      decide
  rw [Text.trim, kept text solid, kept text.reverse, List.reverse_reverse]
  intro c member
  exact solid c (List.mem_reverse.mp member)

/-- A plain text has no white space in it, and none of the signs of a pair. -/
theorem plain_solid {x : Float} {c : Char} (member : c ∈ plain x) :
    Text.isBlank c = false ∧ c ≠ ',' ∧ c ≠ '}' := by
  have code : c.toNat = 45 ∨ c.toNat = 46 ∨ 48 ≤ c.toNat ∧ c.toNat ≤ 57 ∨
      65 ≤ c.toNat ∧ c.toNat ≤ 90 ∨ 97 ≤ c.toNat ∧ c.toNat ≤ 122 := by
    cases finite : x.isFinite with
    | true =>
      rcases mem_plain finite member with rfl | rfl | digit
      · exact .inl rfl
      · exact .inr (.inl rfl)
      · exact .inr (.inr (.inl (Char.isDigit_iff_toNat.mp digit)))
    | false =>
      rcases mem_plain_of_not_isFinite finite member with rfl | letter
      · exact .inl rfl
      · simp only [Char.isAlpha, Char.isUpper, Char.isLower, Bool.or_eq_true, Bool.and_eq_true,
          decide_eq_true_eq] at letter
        exact .inr (.inr (.inr letter))
  refine ⟨?_, ?_, ?_⟩
  · simp [Text.isBlank, Text.blankRanges]
    omega
  · rintro rfl
    revert code
    decide
  · rintro rfl
    revert code
    decide

/-- The text between the braces of a pair. -/
def pairText (z : ComplexNumber) : List Char :=
  plain z.re ++ ',' :: plain z.im ++ ['i']

theorem not_mem_pairText (z : ComplexNumber) : '}' ∉ pairText z := by
  intro member
  simp only [pairText, List.mem_append, List.mem_cons, List.not_mem_nil, or_false] at member
  rcases member with (inRe | same | inIm) | same
  · exact (plain_solid inRe).2.2 rfl
  · cases same
  · exact (plain_solid inIm).2.2 rfl
  · cases same

/-- With the unit behind it, the plain text of a finite number is that of an imaginary one. -/
theorem readImaginary?_plain (x : Float) :
    readImaginary? (plain x ++ ['i']) = if x.isFinite then some x else none := by
  cases finite : x.isFinite with
  | false =>
    rcases plain_of_not_isFinite finite with text | text | text <;> rw [text] <;> rfl
  | true =>
    have read := readFinite?_plain finite
    rw [if_pos rfl, ← read]
    apply readImaginary?_concat <;> intro same <;> rw [same] at read <;> cases read

/-- A pair reads back if both of its parts are finite. -/
theorem read?_pairText (z : ComplexNumber) :
    read? ('{' :: (pairText z ++ ['}'])) = if z.isFinite then some z else none := by
  have notReal : readFinite? ('{' :: (pairText z ++ ['}'])) = none := by
    simp [readFinite?, Decimal.read?, splitSign, readUnsigned?, readWord?]
  have notImaginary : readImaginary? ('{' :: (pairText z ++ ['}'])) = none := by
    have last : ('{' :: (pairText z ++ ['}'])).getLast? = some '}' := by
      rw [← List.cons_append, List.getLast?_concat]
    rw [readImaginary?, last]
    rfl
  have noComma : ∀ c ∈ plain z.re, (!decide (c = ',')) = true := by
    intro c member
    simp [(plain_solid member).2.1]
  have first : (pairText z).takeWhile (fun c => !decide (c = ',')) = plain z.re := by
    rw [pairText, List.append_assoc, List.takeWhile_append_of_pos noComma]
    simp
  have second : (pairText z).dropWhile (fun c => !decide (c = ',')) =
      ',' :: (plain z.im ++ ['i']) := by
    rw [pairText, List.append_assoc, List.dropWhile_append_of_pos noComma]
    simp
  have trimmed : Text.trim (plain z.re) = plain z.re :=
    trim_eq fun c member => (plain_solid member).1
  have trimmedUnit : Text.trim (plain z.im ++ ['i']) = plain z.im ++ ['i'] := by
    apply trim_eq
    intro c member
    rcases List.mem_append.mp member with inIm | unit
    · exact (plain_solid inIm).1
    · rw [List.mem_singleton.mp unit]
      decide
  have parts : read? ('{' :: (pairText z ++ ['}'])) =
      (readFinite? (plain z.re)).bind fun re =>
        (readImaginary? (plain z.im ++ ['i'])).bind fun im => some ⟨re, im⟩ := by
    simp [read?, notReal, notImaginary, readPair?, first, second, trimmed, trimmedUnit]
  rw [parts, readImaginary?_plain, ComplexNumber.isFinite]
  cases reFinite : z.re.isFinite with
  | false =>
    rw [readFinite?_plain_of_not_isFinite reFinite]
    rfl
  | true =>
    rw [readFinite?_plain reFinite]
    cases z.im.isFinite <;> rfl

theorem read?_pair {z : ComplexNumber} (finite : z.isFinite = true) :
    read? ('{' :: (pairText z ++ ['}'])) = some z := by
  rw [read?_pairText, if_pos finite]

/-- What a written number comes to in an expression: whether a minus sign is in front, and the
number that the literal behind it stands for. -/
def reading (z : ComplexNumber) : Bool × ComplexNumber :=
  if z.im.abs < negligible then (isNegative z.re, ⟨absolute z.re, 0.0⟩)
  else if z.re.abs < negligible then
    if (z.im - 1.0).abs < negligible then (false, ⟨0.0, 1.0⟩)
    else (isNegative z.im, ⟨0.0, absolute z.im⟩)
  else (false, z)

/-- The number that a written number is read as in an expression. -/
def reread (z : ComplexNumber) : ComplexNumber :=
  if (reading z).1 then (reading z).2.neg else (reading z).2

/-- A literal without sign: one word, or a pair. -/
inductive IsBody : List Char → ComplexNumber → Prop where
  | word {text value} (written : text ≠ [])
      (chars : ∀ c ∈ text, c = 'i' ∨ c = '.' ∨ c.isDigit = true)
      (reads : read? text = some value) : IsBody text value
  | pair {value} (finite : value.isFinite = true) : IsBody ('{' :: (pairText value ++ ['}'])) value

/-- The plain text of a finite number is a word behind its sign, with the unit or without it. -/
theorem isBody_plain {x : Float} (finite : x.isFinite = true) :
    ∃ body, plain x = signText x ++ body ∧ IsBody body ⟨absolute x, 0.0⟩ ∧
      IsBody (body ++ ['i']) ⟨0.0, absolute x⟩ := by
  obtain ⟨whole, fraction, isNumeral, text, value⟩ := plain_eq finite
  have absoluteFinite := absolute_isFinite finite
  obtain ⟨first, more, shape, -⟩ := numeral_eq_cons isNumeral
  refine ⟨numeral whole fraction, text, .word ?_ ?_ ?_, .word ?_ ?_ ?_⟩
  · simp [shape]
  · exact fun c member => .inr (mem_numeral isNumeral member)
  · exact read?_numeral isNumeral absoluteFinite value
  · simp
  · intro c member
    rcases List.mem_append.mp member with inNumeral | unit
    · exact .inr (mem_numeral isNumeral inNumeral)
    · exact .inl (List.mem_singleton.mp unit)
  · exact read?_numeral_unit isNumeral absoluteFinite value

/-- A finite number is written as a literal without sign, behind a minus sign or not. -/
theorem write_eq {z : ComplexNumber} (finite : z.isFinite = true) :
    ∃ body, write z = (if (reading z).1 then ['-'] else []) ++ body ∧
      IsBody body (reading z).2 := by
  have parts := finite
  rw [ComplexNumber.isFinite, Bool.and_eq_true] at parts
  unfold write reading
  by_cases real : z.im.abs < negligible
  · obtain ⟨body, text, isReal, -⟩ := isBody_plain parts.1
    exact ⟨body, by rw [if_pos real, if_pos real]; exact text, by rw [if_pos real]; exact isReal⟩
  · by_cases imaginary : z.re.abs < negligible
    · by_cases unit : (z.im - 1.0).abs < negligible
      · refine ⟨['i'], ?_, ?_⟩
        · simp [real, imaginary, unit]
        · simp only [if_neg real, if_pos imaginary, if_pos unit]
          exact .word (by simp) (by simp) read?_unit
      · obtain ⟨body, text, -, isImaginary⟩ := isBody_plain parts.2
        refine ⟨body ++ ['i'], ?_, ?_⟩
        · simp only [if_neg real, if_pos imaginary, if_neg unit]
          rw [text, List.append_assoc]
          rfl
        · simp only [if_neg real, if_pos imaginary, if_neg unit]
          exact isImaginary
    · refine ⟨'{' :: (pairText z ++ ['}']), ?_, ?_⟩
      · simp [real, imaginary, pairText]
      · simp only [if_neg real, if_neg imaginary]
        exact .pair finite

/-- A zero with the sign of a number. -/
def zeroLike (x : Float) : Float :=
  if isNegative x then -0.0 else 0.0

/-- Of a number read again the negligible part is a zero with the sign of the other, and what
is close to the unit is the unit. -/
theorem reread_eq {z : ComplexNumber} (finite : z.isFinite = true) :
    reread z =
      if z.im.abs < negligible then ⟨z.re, zeroLike z.re⟩
      else if z.re.abs < negligible then
        if (z.im - 1.0).abs < negligible then ⟨0.0, 1.0⟩ else ⟨zeroLike z.im, z.im⟩
      else z := by
  rw [ComplexNumber.isFinite, Bool.and_eq_true] at finite
  have signed : ∀ {x : Float}, x.isFinite = true →
      (if isNegative x then -absolute x else absolute x) = x :=
    fun finite => withSign_absolute finite
  by_cases real : z.im.abs < negligible
  · have re := signed finite.1
    rw [reread, reading, if_pos real, if_pos real, zeroLike]
    cases negative : isNegative z.re with
    | true =>
      rw [negative] at re
      exact congrArg (ComplexNumber.mk · (-0.0)) re
    | false =>
      rw [negative] at re
      exact congrArg (ComplexNumber.mk · 0.0) re
  · rw [reread, reading, if_neg real, if_neg real]
    by_cases imaginary : z.re.abs < negligible
    · rw [if_pos imaginary, if_pos imaginary]
      by_cases unit : (z.im - 1.0).abs < negligible
      · rw [if_pos unit, if_pos unit]
        rfl
      · have im := signed finite.2
        rw [if_neg unit, if_neg unit, zeroLike]
        cases negative : isNegative z.im with
        | true =>
          rw [negative] at im
          exact congrArg (ComplexNumber.mk (-0.0)) im
        | false =>
          rw [negative] at im
          exact congrArg (ComplexNumber.mk 0.0) im
    · rw [if_neg imaginary, if_neg imaginary]
      rfl

theorem zeroLike_negligible (x : Float) : (zeroLike x).abs < negligible := by
  rw [zeroLike]
  split <;> decide

theorem zeroLike_isFinite (x : Float) : (zeroLike x).isFinite = true := by
  rw [zeroLike]
  split <;> decide

theorem zero_negligible : (0.0 : Float).abs < negligible := by
  decide

theorem one_not_negligible : ¬ (1.0 : Float).abs < negligible := by
  decide

theorem one_near_one : ((1.0 : Float) - 1.0).abs < negligible := by
  decide

theorem reread_isFinite {z : ComplexNumber} (finite : z.isFinite = true) :
    (reread z).isFinite = true := by
  have parts := finite
  rw [ComplexNumber.isFinite, Bool.and_eq_true] at parts
  have zero := zeroLike_isFinite
  rw [reread_eq finite]
  split
  · simp [ComplexNumber.isFinite, parts.1, zero]
  · split
    · split
      · decide
      · simp [ComplexNumber.isFinite, parts.2, zero]
    · exact finite

/-- Reading a written number may lose negligible parts and signs of zeros, but what it is read
as is written in the same way. -/
theorem write_reread {z : ComplexNumber} (finite : z.isFinite = true) :
    write (reread z) = write z := by
  have zeros := zeroLike_negligible
  rw [reread_eq finite, write, write]
  by_cases real : z.im.abs < negligible
  · simp [real, zeros]
  · by_cases imaginary : z.re.abs < negligible
    · by_cases unit : (z.im - 1.0).abs < negligible
      · simp [real, imaginary, unit, one_not_negligible, zero_negligible, one_near_one]
      · simp [real, imaginary, unit, zeros]
    · simp [real, imaginary]

/-- Reading a written number again changes nothing more. -/
theorem reread_reread {z : ComplexNumber} (finite : z.isFinite = true) :
    reread (reread z) = reread z := by
  have zeros := zeroLike_negligible
  rw [reread_eq (reread_isFinite finite), reread_eq finite]
  by_cases real : z.im.abs < negligible
  · simp [real, zeros]
  · by_cases imaginary : z.re.abs < negligible
    · by_cases unit : (z.im - 1.0).abs < negligible
      · simp [real, imaginary, unit, one_not_negligible, zero_negligible, one_near_one]
      · simp [real, imaginary, unit, zeros]
    · simp [real, imaginary]

end DomainColoring.Literal
