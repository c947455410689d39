import DomainColoring.Expression.Lexer
import Mathlib

/-!
# Texts and their tokens

A text is put together from items, and where each item ends does not depend on what was read
before it. So the tokens of a text can be told item by item. Only the tokens are followed here,
not where they stand.
-/

namespace DomainColoring.Lexer

/-- A text splits into tokens, whatever place it begins at. -/
def Lexes (text : List Char) (tokens : List Token) : Prop :=
  ∀ place, ∃ lexemes last, tokensFrom place text = .ok (lexemes ++ [last]) ∧
    last.token = .endOfInput ∧ lexemes.map Lexeme.token = tokens

theorem lexes_nil : Lexes [] [] := by
  intro place
  exact ⟨[], _, by rw [tokensFrom]; rfl, rfl, rfl⟩

/-- An item that is a token is read before what stands behind it. -/
theorem lexes_item {first : Char} {more after : List Char} {token : Token} {tokens : List Token}
    (reaches : extent first (more ++ after) = (more, after))
    (isToken : classify first more = .ok (some token)) (behind : Lexes after tokens) :
    Lexes (first :: more ++ after) (token :: tokens) := by
  intro place
  obtain ⟨lexemes, last, read, isEnd, same⟩ :=
    behind (place + Text.byteLength (first :: more))
  refine ⟨⟨token, ⟨place, place + Text.byteLength (first :: more)⟩⟩ :: lexemes, last, ?_, isEnd, ?_⟩
  · rw [List.cons_append, tokensFrom]
    simp only [reaches, isToken, read]
    rfl
  · rw [List.map_cons, same]

theorem lexes_blank {first : Char} {after : List Char} {tokens : List Token}
    (blank : Text.isBlank first = true) (behind : Lexes after tokens) :
    Lexes (first :: after) tokens := by
  intro place
  have reaches : extent first after = ([], after) := by simp [extent, blank]
  have nothing : classify first [] = .ok none := by simp [classify, blank]
  obtain ⟨lexemes, last, read, isEnd, same⟩ := behind (place + Text.byteLength [first])
  refine ⟨lexemes, last, ?_, isEnd, same⟩
  rw [tokensFrom]
  simp only [reaches, nothing, read]

/-- A sign is a token of its own. -/
theorem lexes_sign {sign : Char} {token : Token} {after : List Char} {tokens : List Token}
    (isSign : sign? sign = some token) (behind : Lexes after tokens) :
    Lexes (sign :: after) (token :: tokens) := by
  have visible : Text.isBlank sign = false := by
    unfold sign? at isSign
    split at isSign <;> first | decide | cases isSign
  have reaches : extent sign ([] ++ after) = ([], after) := by simp [extent, isSign]
  have isToken : classify sign [] = .ok (some token) := by simp [classify, visible, isSign]
  exact lexes_item reaches isToken behind

/-- The characters that end a word, whichever word it is. -/
def isSeparator (c : Char) : Bool :=
  c = ' ' || c = ')' || c = '+' || c = '-' || c = '*' || c = '/' || c = '^'

/-- Words can end here: at the end of the text, or in front of a separator. -/
def Boundary (text : List Char) : Prop :=
  ∀ c ∈ text.head?, isSeparator c = true

/-- The characters of the words that names are made of. -/
def isInner (c : Char) : Bool :=
  c.isDigit || c = '.' || c.isLower

theorem not_isBlank_of_isInner {c : Char} (inner : isInner c = true) : Text.isBlank c = false := by
  have code : c.toNat = 46 ∨ 48 ≤ c.toNat ∧ c.toNat ≤ 57 ∨ 97 ≤ c.toNat ∧ c.toNat ≤ 122 := by
    simp only [isInner, Bool.or_eq_true, decide_eq_true_eq] at inner
    rcases inner with (digit | rfl) | lower
    · exact .inr (.inl (Char.isDigit_iff_toNat.mp digit))
    · exact .inl rfl
    · right
      right
      simpa [Char.isLower, UInt32.le_iff_toNat_le] using lower
  simp [Text.isBlank, Text.blankRanges]
  omega

/-- Inside of a word nothing ends it. -/
theorem not_endsWord_of_isInner (backwards : List Char) {c : Char} (inner : isInner c = true) :
    endsWord backwards c = false := by
  have visible := not_isBlank_of_isInner inner
  have others : c ≠ '*' ∧ c ≠ '/' ∧ c ≠ '^' ∧ c ≠ '(' ∧ c ≠ ')' ∧ c ≠ '{' ∧ c ≠ '}' ∧
      c ≠ '+' ∧ c ≠ '-' := by
    refine ⟨?_, ?_, ?_, ?_, ?_, ?_, ?_, ?_, ?_⟩ <;> rintro rfl <;> cases inner
  simp [endsWord, visible, others]

/-- A separator ends every word that does not look like the beginning of an exponent. -/
theorem endsWord_of_isSeparator {backwards : List Char} {c : Char}
    (complete : isExponentStart backwards = false) (separator : isSeparator c = true) :
    endsWord backwards c = true := by
  simp only [isSeparator, Bool.or_eq_true, decide_eq_true_eq] at separator
  rcases separator with (((((rfl | rfl) | rfl) | rfl) | rfl) | rfl) | rfl <;>
    simp [endsWord, complete, Text.isBlank, Text.blankRanges]

/-- A word is read up to where it ends. -/
theorem splitWord_append {word after : List Char} (inner : ∀ c ∈ word, isInner c = true)
    (boundary : Boundary after) (backwards : List Char)
    (complete : isExponentStart (word.reverse ++ backwards) = false) :
    splitWord backwards (word ++ after) = (word, after) := by
  induction word generalizing backwards with
  | nil =>
    cases after with
    | nil => rfl
    | cons c rest =>
      have ends : endsWord backwards c = true := endsWord_of_isSeparator complete (boundary c rfl)
      rw [List.nil_append, splitWord, if_pos ends]
  | cons c rest inductionHypothesis =>
    have goesOn := not_endsWord_of_isInner backwards (inner c List.mem_cons_self)
    have completeRest : isExponentStart (rest.reverse ++ c :: backwards) = false := by
      simpa using complete
    have readRest := inductionHypothesis (fun d member => inner d (List.mem_cons_of_mem _ member))
      (c :: backwards) completeRest
    rw [List.cons_append, splitWord, goesOn, readRest]
    rfl

/-- A word of which the last character is no exponent mark is complete. -/
theorem not_isExponentStart {backwards : List Char}
    (last : ∀ c ∈ backwards.head?, c ≠ 'e' ∧ c ≠ 'E') : isExponentStart backwards = false := by
  cases backwards with
  | nil => rfl
  | cons c rest =>
    have noMark := last c rfl
    simp [isExponentStart, noMark]

/-- A text is these tokens, wherever it stands in front of a boundary. -/
structure Spells (text : List Char) (tokens : List Token) : Prop where
  lexes : ∀ {after more}, Boundary after → Lexes after more → Lexes (text ++ after) (tokens ++ more)

/-- A word is one token. -/
theorem spells_word {word : List Char} {token : Token} (some : word ≠ [])
    (inner : ∀ c ∈ word, isInner c = true) (last : ∀ c ∈ word.getLast?, c ≠ 'e' ∧ c ≠ 'E')
    (isWord : word? word = .some token) : Spells word [token] := by
  constructor
  intro after tokens boundary behind
  cases word with
  | nil => exact absurd rfl some
  | cons first more =>
    have innerFirst := inner first List.mem_cons_self
    have visible := not_isBlank_of_isInner innerFirst
    have noSign : sign? first = none := by
      unfold sign?
      split <;> first | rfl | cases innerFirst
    have noBrace : first ≠ '{' ∧ first ≠ '}' := by
      constructor <;> rintro rfl <;> cases innerFirst
    have complete : isExponentStart (more.reverse ++ [first]) = false := by
      apply not_isExponentStart
      rw [← List.reverse_cons, List.head?_reverse]
      exact last
    have split := splitWord_append (fun c member => inner c (List.mem_cons_of_mem _ member))
      boundary [first] complete
    have reaches : extent first (more ++ after) = (more, after) := by
      simp [extent, visible, noSign, noBrace, split]
    have isToken : classify first more = .ok (.some token) := by
      simp [classify, visible, noSign, noBrace, isWord]
    exact lexes_item reaches isToken behind

theorem splitPair_append {inner : List Char} (open_ : '}' ∉ inner) (after : List Char) :
    splitPair (inner ++ '}' :: after) = (inner ++ ['}'], after) := by
  induction inner with
  | nil => rfl
  | cons c rest inductionHypothesis =>
    have noBrace : c ≠ '}' := fun same => open_ (same ▸ List.mem_cons_self)
    have readRest := inductionHypothesis fun member => open_ (List.mem_cons_of_mem _ member)
    rw [List.cons_append, splitPair, if_neg noBrace, readRest]
    rfl

/-- A literal in braces is one token. -/
theorem spells_pair {inner : List Char} {value : ComplexNumber} (open_ : '}' ∉ inner)
    (read : Literal.read? ('{' :: (inner ++ ['}'])) = some value) :
    Spells ('{' :: (inner ++ ['}'])) [.number value] := by
  constructor
  intro after tokens _ behind
  have reaches : extent '{' (inner ++ ['}'] ++ after) = (inner ++ ['}'], after) := by
    have split := splitPair_append open_ after
    rw [List.append_assoc, List.singleton_append]
    simp [extent, split, Text.isBlank, Text.blankRanges, sign?]
  have isToken : classify '{' (inner ++ ['}']) = .ok (some (.number value)) := by
    simp [classify, read, Text.isBlank, Text.blankRanges, sign?]
  exact lexes_item reaches isToken behind

end DomainColoring.Lexer
