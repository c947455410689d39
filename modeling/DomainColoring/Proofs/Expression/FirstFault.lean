import DomainColoring.Proofs.Expression.Spans
import DomainColoring.Proofs.Expression.Termination

/-!
# Where errors point

An error in an expression points at the first place that cannot be right. What stands before an
item that is refused splits into tokens, and what stands before a token that is refused is the
front of tokens that the parser accepts, which it is no longer together with this token.
-/

namespace DomainColoring

namespace Parser

namespace Expects

/-- Tokens that make an expression whole: an operand if one is expected, and all parentheses that
are still to be closed. -/
def completion : Expects → List Token
  | operand depth => .argument :: List.replicate depth .rightParen
  | operator depth => List.replicate depth .rightParen

theorem afterAll_replicate (depth : Nat) :
    (operator depth).afterAll (List.replicate depth .rightParen) = some (operator 0) := by
  induction depth with
  | zero => rfl
  | succ depth inductionHypothesis => exact inductionHypothesis

theorem afterAll_completion (expects : Expects) :
    expects.afterAll expects.completion = some (operator 0) := by
  cases expects with
  | operand depth => exact afterAll_replicate depth
  | operator depth => exact afterAll_replicate depth

theorem ne_endOfInput_of_afterAll {expects reached : Expects} {tokens : List Token}
    (all : expects.afterAll tokens = some reached) : ∀ token ∈ tokens, token ≠ .endOfInput := by
  induction tokens generalizing expects with
  | nil => exact nofun
  | cons first rest inductionHypothesis =>
    obtain ⟨next, steps, behind⟩ := Option.bind_eq_some_iff.mp all
    intro token member
    rcases List.mem_cons.mp member with rfl | later
    · exact ne_endOfInput steps
    · exact inductionHypothesis behind token later

end Expects

/-- The end of the input is what nothing stands behind. -/
theorem Ended.isEnd_iff {before behind : List Lexeme} {found : Lexeme}
    (ended : Ended (before ++ found :: behind)) : found.token = .endOfInput ↔ behind = [] := by
  obtain ⟨others, last, shape, isEnd, inside⟩ := ended
  rcases List.eq_nil_or_concat behind with rfl | ⟨more, end_, rfl⟩
  · obtain ⟨-, same⟩ := List.append_inj' shape rfl
    simp [(List.cons.inj same).1, isEnd]
  · rw [List.concat_eq_append, ← List.cons_append, ← List.append_assoc] at shape
    obtain ⟨rfl, -⟩ := List.append_inj' shape rfl
    simp [inside found (by simp)]

/-- The parser fails at a token that may not come next, and the error spans what is between this
token and one that asks for something else. -/
theorem exists_fault {tokens : List Lexeme} {error : SyntaxError} (ended : Ended tokens)
    (failed : parse tokens = .error error) :
    ∃ before found behind reached, tokens = before ++ found :: behind ∧
      parseWithin (enoughSteps tokens) tokens = .failed error (found :: behind) ∧
      (Expects.operand 0).afterAll (before.map Lexeme.token) = some reached ∧
      reached.Refuses found.token ∧
      ∃ asked, (asked = found ∨ asked ∈ before) ∧ error.span = asked.span.merge found.span := by
  rw [parse] at failed
  cases read : parseWithin (enoughSteps tokens) tokens with
  | unfinished => exact absurd read (parseWithin_ne_unfinished ended.halting)
  | done e rest =>
    rw [read] at failed
    cases failed
  | failed fault rest =>
    rw [read] at failed
    cases failed
    obtain ⟨asking, asked, reached, toAsked, toFound, refuses, span⟩ := failsAt_of_failed read
    obtain ⟨endedAsked, front, rfl, allFront⟩ := toAsked.ended ended
    obtain ⟨endedRest, between, rfl, allBetween⟩ := toFound.ended endedAsked
    obtain ⟨found, behind, rfl⟩ :=
      List.exists_cons_of_ne_nil (List.ne_nil_of_length_pos endedRest.halting.length_pos)
    refine ⟨front ++ between, found, behind, reached, (List.append_assoc _ _ _).symm, rfl, ?_,
      refuses, ?_⟩
    · rw [List.map_append, Expects.afterAll_append, allFront]
      exact allBetween
    · cases between with
      | nil => exact ⟨found, .inl rfl, span⟩
      | cons asked others => exact ⟨asked, .inr (by simp), span⟩

/-- Tokens that make up a whole expression are accepted. -/
theorem accepted_of_whole {front : List Lexeme} {last : Lexeme}
    (whole : (Expects.operand 0).afterAll (front.map Lexeme.token) = some (.operator 0))
    (isEnd : last.token = .endOfInput) : Accepted (front ++ [last]) := by
  have ended : Ended (front ++ [last]) := by
    refine ⟨front, last, rfl, isEnd, fun lexeme member => ?_⟩
    exact Expects.ne_endOfInput_of_afterAll whole _ (List.mem_map_of_mem member)
  cases parsed : parse (front ++ [last]) with
  | ok e => exact ⟨e, parsed⟩
  | error error =>
    obtain ⟨before, found, behind, reached, shape, -, upTo, refuses, -⟩ :=
      exists_fault ended parsed
    exact absurd refuses (Expects.not_refuses_of_whole whole isEnd upTo shape)

/-- Tokens each of which may come next are the front of tokens that are accepted. -/
theorem exists_accepted {before : List Lexeme} {reached : Expects}
    (upTo : (Expects.operand 0).afterAll (before.map Lexeme.token) = some reached) :
    ∃ more, Accepted (before ++ more) := by
  let anywhere : Span := ⟨0, 0⟩
  let others : List Lexeme := reached.completion.map (⟨·, anywhere⟩)
  have tokens : others.map Lexeme.token = reached.completion :=
    List.map_map.trans (List.map_id _)
  refine ⟨others ++ [⟨.endOfInput, anywhere⟩], ?_⟩
  rw [← List.append_assoc]
  refine accepted_of_whole ?_ rfl
  rw [List.map_append, Expects.afterAll_append, upTo, tokens]
  exact reached.afterAll_completion

/-- Tokens with one that may not come next are the front of no tokens that are accepted. -/
theorem not_accepted_of_refuses {before : List Lexeme} {found : Lexeme} {reached : Expects}
    (upTo : (Expects.operand 0).afterAll (before.map Lexeme.token) = some reached)
    (refuses : reached.Refuses found.token) (more : List Lexeme) :
    ¬ Accepted (before ++ found :: more) := by
  intro accepted
  obtain ⟨front, last, behind, shape, isEnd, whole⟩ := accepted.afterAll
  exact Expects.not_refuses_of_whole whole isEnd upTo shape.symm refuses

end Parser

namespace Expression

open Lexer

/-- The lexemes of a text cover parts of it, one behind the other, and the last of them and no
other is the end of the input. -/
theorem lexemes_of_tokens {text : List Char} {read : List Lexeme} (ok : tokens text = .ok read) :
    Parser.Ended read ∧ (∀ l ∈ read, ∃ part, l.span.Covers text part) ∧
      read.Pairwise fun l m => l.span.stop ≤ m.span.start := by
  obtain ⟨lexemes, takes, rfl⟩ := exists_takes_of_ok ok
  refine ⟨⟨lexemes, _, rfl, rfl, fun l => takes.ne_endOfInput⟩, ?_, takes.ordered_to_end⟩
  intro l member
  rcases List.mem_append.mp member with item | atEnd
  · obtain ⟨first, more, covers, -, -⟩ := takes.covers item
    exact ⟨first :: more, covers⟩
  · rw [List.mem_singleton.mp atEnd]
    exact ⟨[], text, [], by simp, rfl, by simp⟩

/-- An error in the order of tokens spans a part of the text, up to the end of the token that may
not come next. -/
theorem covers_of_fault {text : List Char} {asked found : Lexeme} {before behind : List Lexeme}
    (covers : ∀ l ∈ before ++ found :: behind, ∃ part, l.span.Covers text part)
    (ordered : (before ++ found :: behind).Pairwise fun l m => l.span.stop ≤ m.span.start)
    (asks : asked = found ∨ asked ∈ before) :
    (asked.span.merge found.span).stop = found.span.stop ∧
      ∃ part, (asked.span.merge found.span).Covers text part := by
  obtain ⟨foundPart, foundCovers⟩ := covers found (by simp)
  have foundLength := foundCovers.start_le_stop
  rcases asks with rfl | earlier
  · have same : asked.span.merge asked.span = asked.span := by simp [Span.merge]
    rw [same]
    exact ⟨rfl, foundPart, foundCovers⟩
  · obtain ⟨askedPart, askedCovers⟩ := covers asked (by simp [earlier])
    have askedLength := askedCovers.start_le_stop
    have apart := (List.pairwise_append.mp ordered).2.2 asked earlier found List.mem_cons_self
    have joined : asked.span.merge found.span = ⟨asked.span.start, found.span.stop⟩ := by
      rw [Span.merge, Nat.min_eq_left (by omega), Nat.max_eq_right (by omega)]
    rw [joined]
    exact ⟨rfl, askedCovers.join foundCovers (by omega)⟩

end Expression

/-- An error in an expression spans a part of the text. Either it stands in front of an item that
is no token: then the text up to there splits into the tokens that were read. Or the text splits
into tokens, and the error ends with the token that the parser stopped in front of: the tokens
before it are the front of tokens that the parser accepts, but together with it they are the front
of none. This token may be the end of the input, which means that the tokens before are no
expression. -/
theorem Operand.first_fault {text : List Char} {error : SyntaxError}
    (failed : Operand.read text = .error error) :
    (error.span.start ≤ error.span.stop ∧ error.span.stop ≤ Text.byteLength text ∧
      ∃ part, error.span.Covers text part) ∧
    ((Lexer.tokens text = .error error ∧
        ∃ front behind lexemes, text = front ++ behind ∧
          error.span.start = Text.byteLength front ∧
          Lexer.Takes 0 front behind lexemes ∧ Lexer.Refused behind error.cause ∧
          Lexer.tokens front =
            .ok (lexemes ++ [⟨.endOfInput, Text.byteLength front, Text.byteLength front⟩])) ∨
      ∃ tokens before found behind,
        Lexer.tokens text = .ok tokens ∧ tokens = before ++ found :: behind ∧
        Parser.parseWithin (Parser.enoughSteps tokens) tokens = .failed error (found :: behind) ∧
        error.span.stop = found.span.stop ∧
        (∃ more, Parser.Accepted (before ++ more)) ∧
        (∀ more, ¬ Parser.Accepted (before ++ found :: more)) ∧
        (found.token = .endOfInput ↔ behind = [])) := by
  have failedRead : Expression.read text = .error error := by
    rw [Operand.read] at failed
    cases read : Expression.read text with
    | error fault =>
      rw [read] at failed
      cases failed
      rfl
    | ok e =>
      rw [read] at failed
      cases failed
  cases lexed : Lexer.tokens text with
  | error fault =>
    rw [Expression.read, lexed] at failedRead
    cases failedRead
    obtain ⟨front, first, rest, lexemes, rfl, takes, refused, span⟩ :=
      Lexer.exists_takes_of_error lexed
    have covers : error.span.Covers (front ++ first :: rest)
        (first :: (Lexer.extent first rest).1) := by
      refine ⟨front, (Lexer.extent first rest).2, ?_, by rw [span], by rw [span]⟩
      rw [List.append_assoc, List.cons_append, Lexer.extent_eq]
    refine ⟨⟨covers.start_le_stop, covers.stop_le, _, covers⟩, .inl ⟨rfl, ?_⟩⟩
    exact ⟨front, first :: rest, lexemes, rfl, by rw [span], takes, ⟨first, rest, rfl, refused⟩,
      (takes.congr (Lexer.mayFollow_nil _)).tokens_eq⟩
  | ok tokens =>
    rw [Expression.read, lexed] at failedRead
    obtain ⟨ended, covers, ordered⟩ := Expression.lexemes_of_tokens lexed
    obtain ⟨before, found, behind, reached, rfl, read, upTo, refuses, asked, asks, span⟩ :=
      Parser.exists_fault ended failedRead
    obtain ⟨stop, part, coversPart⟩ := Expression.covers_of_fault covers ordered asks
    rw [← span] at stop coversPart
    refine ⟨⟨coversPart.start_le_stop, coversPart.stop_le, part, coversPart⟩, .inr ?_⟩
    exact ⟨_, before, found, behind, rfl, rfl, read, stop, Parser.exists_accepted upTo,
      Parser.not_accepted_of_refuses upTo refuses, ended.isEnd_iff⟩

/-- A second operand where the parenthesis should be closed. -/
theorem Operand.first_fault_unclosed :
    Operand.read ['(', 'z', ' ', 'z'] = .error ⟨.unclosedParenthesis .argument, 0, 4⟩ ∧
      (∃ more, Parser.Accepted ([⟨.leftParen, 0, 1⟩, ⟨.argument, 1, 2⟩] ++ more)) ∧
      ∀ more, ¬ Parser.Accepted
        ([⟨.leftParen, 0, 1⟩, ⟨.argument, 1, 2⟩] ++ ⟨.argument, 3, 4⟩ :: more) := by
  let tokens : List Lexeme := [⟨.leftParen, 0, 1⟩, ⟨.argument, 1, 2⟩, ⟨.argument, 3, 4⟩,
    ⟨.endOfInput, 4, 4⟩]
  have takes : Lexer.Takes 0 ['(', 'z', ' ', 'z'] [] [⟨.leftParen, 0, 1⟩, ⟨.argument, 1, 2⟩,
      ⟨.argument, 3, 4⟩] :=
    @Lexer.Takes.token 0 '(' [] _ _ _ _ rfl rfl (@Lexer.Takes.token 1 'z' [] _ _ _ _ rfl rfl
      (.blank rfl (@Lexer.Takes.token 3 'z' [] _ _ _ _ rfl rfl .nothing)))
  have lexed : Lexer.tokens ['(', 'z', ' ', 'z'] = .ok tokens := takes.tokens_eq
  have parsed : Parser.parse tokens = .error ⟨.unclosedParenthesis .argument, 0, 4⟩ := rfl
  have failed : Operand.read ['(', 'z', ' ', 'z'] =
      .error ⟨.unclosedParenthesis .argument, 0, 4⟩ := by
    rw [Operand.read, Expression.read, lexed]
    exact congrArg (Except.map Expression.operand) parsed
  refine ⟨failed, ?_⟩
  obtain ⟨-, ⟨refused, -⟩ |
      ⟨tokens', before, found, behind, lexed', shape, read, -, viable, dead, -⟩⟩ :=
    Operand.first_fault failed
  · rw [lexed] at refused
    cases refused
  · obtain rfl : tokens = tokens' := Except.ok.inj (lexed.symm.trans lexed')
    have stopped : Parser.parseWithin (Parser.enoughSteps tokens) tokens =
        .failed ⟨.unclosedParenthesis .argument, 0, 4⟩
          [⟨.argument, 3, 4⟩, ⟨.endOfInput, 4, 4⟩] := rfl
    obtain ⟨-, left⟩ := Reading.failed.inj (stopped.symm.trans read)
    obtain ⟨rfl, rfl⟩ := List.cons.inj left
    obtain ⟨rfl, -⟩ := List.append_inj' (show [_, _] ++ _ = _ from shape) rfl
    exact ⟨viable, dead⟩

end DomainColoring
