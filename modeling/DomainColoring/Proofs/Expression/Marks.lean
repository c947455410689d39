import DomainColoring.Proofs.Expression.FirstFault
import DomainColoring.Proofs.Outcome

/-!
# Marks under an error

An error in an expression is shown over the expression and a line of marks under the part that it
spans. The marks begin under the first character of this part, whatever stands in front of it. But
there is one of them for each byte of the part and not for each character, so they end with it
only if all characters of the part take one byte.
-/

namespace DomainColoring

namespace Text

/-- What stands behind the last line break of a text. -/
def lastLine (text : List Char) : List Char :=
  text.rtakeWhile (· ≠ '\n')

/-- A line of marks under a text that stands two spaces in, behind some of its characters. -/
def marks (behind count : Nat) : List Char :=
  List.replicate (2 + behind) ' ' ++ List.replicate count '^'

theorem lastLine_append (front : List Char) {line : List Char} (unbroken : '\n' ∉ line) :
    lastLine (front ++ '\n' :: line) = line := by
  have inLine : ∀ c ∈ line.reverse, decide (c ≠ '\n') = true := by
    intro c member
    exact decide_eq_true (ne_of_mem_of_not_mem (List.mem_reverse.mp member) unbroken)
  rw [lastLine, List.rtakeWhile, List.reverse_append, List.reverse_cons, List.append_assoc,
    List.takeWhile_append_of_pos inLine]
  simp

theorem newline_notMem_marks (behind count : Nat) : '\n' ∉ marks behind count := by
  simp [marks]

theorem marks_inj {behind count count' : Nat} :
    marks behind count = marks behind count' ↔ count = count' := by
  constructor
  · intro same
    simpa [marks] using congrArg List.length same
  · exact congrArg _

/-- Under a part of a text, the marks begin behind the characters in front of the part, and there
is one for each byte of the part. -/
theorem lastLine_underlined (message : String) {text before part after : List Char} {span : Span}
    (shape : text = before ++ part ++ after) (start : span.start = byteLength before)
    (stop : span.stop = byteLength (before ++ part)) :
    lastLine (underlined message text span).toList =
      marks before.length (max 1 (byteLength part)) := by
  have inside : min span.start (byteLength text) = byteLength before := by
    rw [start, shape, byteLength_append, byteLength_append]
    omega
  have indent : charsBefore? text (byteLength before) = some before.length := by
    rw [shape, List.append_assoc]
    exact charsBefore?_byteLength before (part ++ after)
  have width : max (span.stop - span.start) 1 = max 1 (byteLength part) := by
    rw [start, stop, byteLength_append]
    omega
  have lines : (underlined message text span).toList =
      (message.toList ++ '\n' :: ' ' :: ' ' :: text) ++
        '\n' :: marks before.length (max 1 (byteLength part)) := by
    simp [underlined, inside, indent, width, marks, List.replicate_add, List.replicate_succ]
  rw [lines]
  exact lastLine_append _ (newline_notMem_marks _ _)

end Text

namespace SyntaxError

/-- An error over the text that it was found in and the line of marks. -/
def shown (error : SyntaxError) (text : List Char) : List Char :=
  (Text.underlined (report error.message) text error.span).toList

end SyntaxError

/-- An error of the lexer spans the item that it stands in front of, and one of the parser spans
tokens. -/
theorem Expression.covers_of_error {text : List Char} {error : SyntaxError}
    (failed : Expression.read text = .error error) : ∃ part, error.span.Covers text part := by
  rcases Outcome.bind_eq_error_iff.mp failed with unread | ⟨tokens, lexed, unparsed⟩
  · obtain ⟨front, first, rest, -, rfl, -, -, span⟩ := Lexer.exists_takes_of_error unread
    refine ⟨first :: (Lexer.extent first rest).1, front, (Lexer.extent first rest).2, ?_, ?_, ?_⟩
    · rw [List.append_assoc, List.cons_append, Lexer.extent_eq]
    · rw [span]
    · rw [span]
  · obtain ⟨ended, covers, ordered⟩ := Expression.lexemes_of_tokens lexed
    obtain ⟨before, found, behind, -, rfl, -, -, -, asked, asks, span⟩ :=
      Parser.exists_fault ended unparsed
    obtain ⟨-, part⟩ := Expression.covers_of_fault covers ordered asks
    rw [span]
    exact part

theorem Operand.covers_of_error {text : List Char} {error : SyntaxError}
    (failed : Operand.read text = .error error) : ∃ part, error.span.Covers text part := by
  cases read : Expression.read text with
  | error fault =>
    rw [Operand.read, read] at failed
    cases failed
    exact Expression.covers_of_error read
  | ok e =>
    rw [Operand.read, read] at failed
    cases failed

/-- A constant where a function is asked for is an error all over the text. -/
theorem NamedMap.covers_of_error {text : List Char} {error : SyntaxError}
    (failed : NamedMap.read text = .error error) : ∃ part, error.span.Covers text part := by
  rcases Outcome.bind_eq_error_iff.mp failed with unread | ⟨operand, read, unused⟩
  · exact Operand.covers_of_error unread
  · cases operand with
    | mapped f => cases unused
    | constant c =>
      cases unused
      exact ⟨text, [], [], by simp, rfl, rfl⟩

/-- An error in an expression spans a part of the text. The last line in which it is shown begins
with two spaces and one more for each character in front of this part, and then has one mark for
each byte of the part, and at least one. These are as many marks as the part has characters, or
one if it is empty, exactly if every character of it takes one byte. -/
theorem SyntaxError.marks_characters_iff {text : List Char} {error : SyntaxError}
    (failed : Operand.read text = .error error ∨ NamedMap.read text = .error error) :
    (∃ part, error.span.Covers text part) ∧
      ∀ before part after, text = before ++ part ++ after →
        error.span = ⟨Text.byteLength before, Text.byteLength (before ++ part)⟩ →
        Text.lastLine (error.shown text) =
            Text.marks before.length (max 1 (Text.byteLength part)) ∧
          (Text.lastLine (error.shown text) = Text.marks before.length (max 1 part.length) ↔
            ∀ c ∈ part, c.utf8Size = 1) := by
  refine ⟨failed.elim Operand.covers_of_error NamedMap.covers_of_error, ?_⟩
  intro before part after shape span
  have line : Text.lastLine (error.shown text) =
      Text.marks before.length (max 1 (Text.byteLength part)) :=
    Text.lastLine_underlined _ shape (congrArg Span.start span) (congrArg Span.stop span)
  refine ⟨line, ?_⟩
  rw [line, Text.marks_inj, ← Text.byteLength_eq_length_iff]
  constructor
  · intro same
    have atLeast := Text.length_le_byteLength part
    -- One mark is also what no bytes have, but then there is no character either.
    cases part with
    | nil => rfl
    | cons c rest =>
      rw [List.length_cons] at same atLeast ⊢
      omega
  · exact congrArg (max 1)

/-- A blank of two bytes in front of a word is one space in front of its mark. -/
theorem SyntaxError.marks_behind_blank :
    ∃ error, Operand.read ['\xa0', 'w'] = .error error ∧ error.span = ⟨2, 3⟩ ∧
      Text.lastLine (error.shown ['\xa0', 'w']) = Text.marks 1 1 := by
  have failed : Operand.read ['\xa0', 'w'] = .error ⟨.unknownWord ['w'], 2, 3⟩ := by
    have blank : Lexer.Takes 0 ['\xa0'] ['w'] [] := .blank rfl .nothing
    have atWord : Lexer.tokens ['\xa0', 'w'] = .error ⟨.unknownWord ['w'], 2, 3⟩ := by
      rw [Lexer.tokens, ← List.singleton_append, blank.tokensFrom_eq, Lexer.tokensFrom]
      rfl
    rw [Operand.read, Expression.read, atWord]
    rfl
  obtain ⟨-, marked⟩ := SyntaxError.marks_characters_iff (.inl failed)
  obtain ⟨-, characters⟩ := marked ['\xa0'] ['w'] [] rfl rfl
  exact ⟨_, failed, rfl, characters.mpr (List.forall_mem_singleton.mpr rfl)⟩

/-- A word of one character and two bytes has two marks, the second under the sign behind it. -/
theorem SyntaxError.marks_beyond_word :
    ∃ error, Operand.read ['ζ', '+', 'z'] = .error error ∧
      error.span = ⟨Text.byteLength [], Text.byteLength ['ζ']⟩ ∧
      Text.lastLine (error.shown ['ζ', '+', 'z']) = Text.marks 0 2 ∧
      Text.lastLine (error.shown ['ζ', '+', 'z']) ≠ Text.marks 0 (max 1 ['ζ'].length) := by
  refine ⟨⟨.unknownWord ['ζ'], 0, 2⟩, ?_, rfl, rfl, by decide +kernel⟩
  rw [Operand.read, Expression.read, Lexer.tokens, Lexer.tokensFrom]
  rfl

end DomainColoring
