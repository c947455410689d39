import DomainColoring.Proofs.Expression.Items

/-!
# Texts with white space between them

White space keeps the tokens of two texts apart, whatever the texts are. What comes of the second
text does not depend on where it begins, so behind a text that splits into tokens and some white
space it comes to the same, only further behind. Nothing is said of texts without white space
between them: their words may run together.
-/

namespace DomainColoring

/-- The span as many bytes further behind. -/
def Span.moved (span : Span) (size : Nat) : Span :=
  ⟨span.start + size, span.stop + size⟩

def Lexeme.moved (lexeme : Lexeme) (size : Nat) : Lexeme :=
  ⟨lexeme.token, lexeme.span.moved size⟩

def SyntaxError.moved (e : SyntaxError) (size : Nat) : SyntaxError :=
  ⟨e.cause, e.span.moved size⟩

namespace Lexer

/-- What comes of a text that stands as many bytes further behind. -/
def moved (size : Nat) :
    Except SyntaxError (List Lexeme) → Except SyntaxError (List Lexeme)
  | .ok lexemes => .ok (lexemes.map (·.moved size))
  | .error e => .error (e.moved size)

/-- Where a text begins moves its tokens, or the error in it, and changes nothing else. -/
theorem tokensFrom_add (size place : Nat) (text : List Char) :
    tokensFrom (place + size) text = moved size (tokensFrom place text) := by
  fun_induction tokensFrom place text with
  | case1 place =>
    rw [tokensFrom]
    rfl
  | case2 place first rest more span cause refused =>
    rw [tokensFrom]
    simp only [more] at refused
    simp only [refused, moved, SyntaxError.moved, Span.moved, span, more, Nat.add_right_comm]
  | case3 place first rest more after span nothing inductionHypothesis =>
    rw [tokensFrom]
    simp only [more] at nothing
    simp only [nothing]
    rw [← inductionHypothesis, Nat.add_right_comm]
  | case4 place first rest more after span token isToken inductionHypothesis =>
    rw [tokensFrom]
    simp only [more] at isToken
    simp only [isToken]
    rw [Nat.add_right_comm, inductionHypothesis]
    cases tokensFrom span.stop after <;> rfl

/-- White space is passed over. -/
theorem takes_blanks {blanks : List Char} (blank : ∀ c ∈ blanks, Text.isBlank c = true)
    (place : Nat) (behind : List Char) : Takes place blanks behind [] := by
  induction blanks generalizing place with
  | nil => exact .nothing
  | cons c rest inductionHypothesis =>
    exact .blank (blank c List.mem_cons_self)
      (inductionHypothesis (fun d member => blank d (List.mem_cons_of_mem _ member)) _)

theorem mayFollow_blanks {blanks : List Char} (apart : blanks ≠ [])
    (blank : ∀ c ∈ blanks, Text.isBlank c = true) (behind : List Char) :
    MayFollow [] (blanks ++ behind) := by
  intro c first
  rw [List.head?_append_of_ne_nil _ apart] at first
  exact .inr (blank c (List.mem_of_mem_head? first))

/-- Behind a text that is read to its end, and white space, another text comes to what it comes
to alone. -/
theorem tokens_append_blanks {front blanks : List Char} {lexemes : List Lexeme}
    (takes : Takes 0 front [] lexemes) (apart : blanks ≠ [])
    (blank : ∀ c ∈ blanks, Text.isBlank c = true) (behind : List Char) :
    tokens (front ++ blanks ++ behind) =
      (moved (Text.byteLength (front ++ blanks)) (tokens behind)).map (lexemes ++ ·) := by
  have frontTaken : Takes 0 front (blanks ++ behind) lexemes :=
    takes.congr (mayFollow_blanks apart blank behind)
  have blanksTaken : Takes (0 + Text.byteLength front) blanks behind [] :=
    takes_blanks blank _ behind
  have noMore : ∀ read : Except SyntaxError (List Lexeme), read.map ([] ++ ·) = read := by
    intro read
    cases read <;> rfl
  rw [tokens, List.append_assoc, frontTaken.tokensFrom_eq, blanksTaken.tokensFrom_eq, noMore,
    Nat.add_assoc, ← Text.byteLength_append, tokensFrom_add, tokens]

/-- White space between two texts, the first of which splits into tokens, joins what comes of
them. If the second splits into tokens as well, the tokens of the whole are those of the first
without the end of the input, and then those of the second. If it does not, the whole is refused
for the same cause. Everything of the second text stands as many bytes further behind as there
are in front of it. -/
theorem tokens_joined {front blanks : List Char} {read : List Lexeme} (ok : tokens front = .ok read)
    (apart : blanks ≠ []) (blank : ∀ c ∈ blanks, Text.isBlank c = true) (behind : List Char) :
    ∃ lexemes : List Lexeme,
      read = lexemes ++ [⟨.endOfInput, Text.byteLength front, Text.byteLength front⟩] ∧
      (∀ others, tokens behind = .ok others →
        tokens (front ++ blanks ++ behind) =
          .ok (lexemes ++ others.map (·.moved (Text.byteLength (front ++ blanks))))) ∧
      ∀ e, tokens behind = .error e →
        ∃ e', tokens (front ++ blanks ++ behind) = .error e' ∧ e'.cause = e.cause ∧
          e'.message = e.message ∧ e'.span = e.span.moved (Text.byteLength (front ++ blanks)) := by
  obtain ⟨lexemes, takes, rfl⟩ := exists_takes_of_ok ok
  have joined := tokens_append_blanks takes apart blank behind
  refine ⟨lexemes, rfl, fun others behindOk => ?_, fun e failed => ?_⟩
  · rw [joined, behindOk]
    rfl
  · refine ⟨e.moved (Text.byteLength (front ++ blanks)), ?_, rfl, rfl, rfl⟩
    rw [joined, failed]
    rfl

/-- The blank takes three bytes; behind it stands a text of two tokens, or a brace that is not
closed. -/
theorem tokens_joined_wide_blank :
    tokens ['l', 'n', '\u3000', '-', 'z'] = .ok [⟨.prefixWord .ln, 0, 2⟩, ⟨.minus, 5, 6⟩,
        ⟨.argument, 6, 7⟩, ⟨.endOfInput, 7, 7⟩] ∧
      ∃ e, tokens ['l', 'n', '\u3000', '(', '{', '1'] = .error e ∧ e.cause = .unterminatedPair ∧
        e.span = ⟨6, 8⟩ := by
  have front : Takes 0 ['l', 'n'] [] [⟨.prefixWord .ln, 0, 2⟩] :=
    @Takes.token 0 'l' ['n'] [] _ _ _ rfl rfl .nothing
  have behind : Takes 0 ['-', 'z'] [] [⟨.minus, 0, 1⟩, ⟨.argument, 1, 2⟩] :=
    @Takes.token 0 '-' [] _ _ _ _ rfl rfl (@Takes.token 1 'z' [] [] _ _ _ rfl rfl .nothing)
  have refused : tokens ['(', '{', '1'] = .error ⟨.unterminatedPair, 1, 3⟩ := by
    have opening : Takes 0 ['('] ['{', '1'] [⟨.leftParen, 0, 1⟩] :=
      @Takes.token 0 '(' [] [] _ _ _ rfl rfl .nothing
    have read := opening.tokensFrom_eq
    rw [tokensFrom] at read
    exact read
  have apart : ['\u3000'] ≠ [] := by decide
  have blank : ∀ c ∈ ['\u3000'], Text.isBlank c = true := List.forall_mem_singleton.mpr rfl
  obtain ⟨lexemes, split, joined, -⟩ := tokens_joined front.tokens_eq apart blank ['-', 'z']
  obtain ⟨-, -, -, refusedToo⟩ := tokens_joined front.tokens_eq apart blank ['(', '{', '1']
  obtain ⟨rfl, -⟩ := List.append_inj' split rfl
  obtain ⟨e, failed, cause, -, span⟩ := refusedToo _ refused
  exact ⟨joined _ behind.tokens_eq, e, failed, cause, span⟩

end Lexer
end DomainColoring
