import DomainColoring.Proofs.Expression.ViablePrefix

/-!
# Reading ends

Every call of a reader that steps over nothing is followed by one that does, or by an answer: only
reading a last token over and over can go on for ever, and only if this token opens an operand. So
on all other lists the number of steps that `Parser.parse` allows is enough, whether they end with
the end of the input or not.
-/

namespace DomainColoring

namespace Reading

theorem andThen_ne_unfinished {α β : Type} {reading : Reading α}
    {next : α → List Lexeme → Reading β} (finished : reading ≠ .unfinished)
    (follows : ∀ value rest, reading = .done value rest → next value rest ≠ .unfinished) :
    reading.andThen next ≠ .unfinished := by
  cases reading with
  | unfinished => exact absurd rfl finished
  | failed error rest => simp [andThen]
  | done value rest => exact follows value rest rfl

end Reading

namespace Parser

open Grammar

theorem afterOperator_ne_unfinished {α : Type} {symbol : List Char} {tokens : List Lexeme}
    {next : List Lexeme → Reading α} (follows : next (advance tokens) ≠ .unfinished) :
    afterOperator symbol tokens next ≠ .unfinished := by
  rw [afterOperator]
  split
  · exact follows
  · simp

/-- The token asks for an operand to come, and could be the first of that operand itself. -/
def opens : Token → Bool
  | .prefixWord _ => true
  | .minus => true
  | .leftParen => true
  | _ => false

theorem opens_of_prefixOperator? {token : Token} {op : PrefixOperator}
    (isOperator : token.prefixOperator? = some op) : opens token = true := by
  cases token <;> first | rfl | cases isOperator

/-- No token that opens an operand comes to be the one behind which nothing is read: there is the
end of the input, or the last token is another one. -/
def Halting (tokens : List Lexeme) : Prop :=
  ∃ before last behind, tokens = before ++ last :: behind ∧
    (last.token = .endOfInput ∨ behind = [] ∧ opens last.token = false)

/-- The token in front is the last, and opens no operand. -/
def Stuck (tokens : List Lexeme) : Prop :=
  advance tokens = tokens ∧ opens (peek tokens) = false

theorem Ended.halting {tokens : List Lexeme} (ended : Ended tokens) : Halting tokens := by
  obtain ⟨before, last, rfl, isEnd, -⟩ := ended
  exact ⟨before, last, [], rfl, .inl isEnd⟩

namespace Halting

variable {tokens : List Lexeme}

theorem length_pos (halting : Halting tokens) : 0 < tokens.length := by
  obtain ⟨before, last, behind, rfl, -⟩ := halting
  simp

/-- In front of the end of the input, a token is stepped over unless it is the last. -/
theorem advance (halting : Halting tokens) (inside : peek tokens ≠ .endOfInput) :
    Halting (Parser.advance tokens) ∧
      ((Parser.advance tokens).length + 1 = tokens.length ∨ Stuck tokens) := by
  obtain ⟨before, last, behind, rfl, final⟩ := halting
  cases before with
  | nil =>
    obtain ⟨rfl, noOpening⟩ := final.resolve_left inside
    exact ⟨⟨[], last, [], rfl, .inr ⟨rfl, noOpening⟩⟩, .inr ⟨rfl, noOpening⟩⟩
  | cons first more =>
    have behindFirst : Parser.advance (first :: more ++ last :: behind) = more ++ last :: behind :=
      advance_cons (by simp)
    rw [behindFirst]
    exact ⟨⟨more, last, behind, rfl, final⟩, .inl rfl⟩

/-- A token that opens an operand is stepped over. -/
theorem length_advance (halting : Halting tokens) (opening : opens (peek tokens) = true) :
    Halting (Parser.advance tokens) ∧ (Parser.advance tokens).length + 1 = tokens.length := by
  have inside : peek tokens ≠ .endOfInput := by
    intro atEnd
    rw [atEnd] at opening
    cases opening
  obtain ⟨haltingBehind, stepped | stuck⟩ := halting.advance inside
  · exact ⟨haltingBehind, stepped⟩
  · rw [stuck.2] at opening
    cases opening

end Halting

theorem Path.eq_of_advance_eq {expects last : Expects} {tokens rest : List Lexeme}
    (path : Path expects tokens last rest) (stays : advance tokens = tokens) : rest = tokens := by
  induction path with
  | here => rfl
  | step steps others inductionHypothesis =>
    rw [stays] at inductionHypothesis
    exact inductionHypothesis stays

/-- On the way, tokens were stepped over, or nothing was, or the last token is in front. -/
theorem Path.halting {expects last : Expects} {tokens rest : List Lexeme}
    (path : Path expects tokens last rest) (halting : Halting tokens) :
    Halting rest ∧ rest.length ≤ tokens.length ∧
      (expects = last ∨ rest.length < tokens.length ∨ Stuck rest) := by
  induction path with
  | here => exact ⟨halting, le_rfl, .inl rfl⟩
  | step steps others inductionHypothesis =>
    obtain ⟨haltingBehind, stepped | stuck⟩ := halting.advance (Expects.ne_endOfInput steps)
    · obtain ⟨haltingRest, bound, -⟩ := inductionHypothesis haltingBehind
      exact ⟨haltingRest, by omega, .inr (.inl (by omega))⟩
    · rw [stuck.1] at others
      rw [others.eq_of_advance_eq stuck.1]
      exact ⟨halting, le_rfl, .inr (.inr stuck)⟩

/-- What an operand was read from is stepped over, or it was the last token. -/
theorem halting_of_done {s : Symbol} {depth : Nat} {tokens rest : List Lexeme} {α : Type}
    {value : α} {reading : Reading α} (halting : Halting tokens)
    (reaches : Reaches s depth (.operand depth) tokens reading)
    (done : reading = .done value rest) :
    Halting rest ∧ (rest.length < tokens.length ∨ Stuck rest) := by
  rw [done] at reaches
  obtain ⟨haltingRest, -, same | moved⟩ := reaches.1.halting halting
  · cases same
  · exact ⟨haltingRest, moved⟩

/-- Every reader finishes within a number of steps that is linear in the number of tokens. An atom
takes a step more than a part if it has a prefix operator, and one less if it has none. In front of
the last token, a single step shows that no operand follows. -/
structure Finishes (steps : Nat) : Prop where
  layer : ∀ {l tokens}, Halting tokens → 8 * tokens.length + surplus (.layer l) ≤ steps + 6 →
    readLayer steps l tokens ≠ .unfinished
  operand : ∀ {l tokens}, Halting tokens → 8 * tokens.length + surplus (.operand l) ≤ steps + 6 →
    readTighter steps l tokens ≠ .unfinished
  chain : ∀ {l left tokens}, Halting tokens →
    8 * tokens.length + surplus (.rest l) ≤ steps + 6 ∨ Stuck tokens ∧ 1 ≤ steps →
    readChain steps l left tokens ≠ .unfinished
  part : ∀ {tokens}, Halting tokens → 8 * tokens.length + surplus .part ≤ steps + 6 →
    readPart steps tokens ≠ .unfinished
  prefixed : ∀ {tokens op}, Halting tokens → (peek tokens).prefixOperator? = some op →
    8 * tokens.length ≤ steps + 5 → readAtom steps tokens ≠ .unfinished
  plain : ∀ {tokens}, Halting tokens → (peek tokens).prefixOperator? = none →
    8 * tokens.length ≤ steps + 7 → readAtom steps tokens ≠ .unfinished

namespace Finishes

variable {steps : Nat} {tokens : List Lexeme}

theorem atom (finishes : Finishes steps) (halting : Halting tokens)
    (enough : 8 * tokens.length ≤ steps + 5) : readAtom steps tokens ≠ .unfinished := by
  cases isOperator : (peek tokens).prefixOperator? with
  | none => exact finishes.plain halting isOperator (by omega)
  | some op => exact finishes.prefixed halting isOperator enough

theorem layer_succ (finishes : Finishes steps) {l : Layer} (halting : Halting tokens)
    (enough : 8 * tokens.length + surplus (.layer l) ≤ steps + 1 + 6) :
    readLayer (steps + 1) l tokens ≠ .unfinished := by
  have surpluses : surplus (.operand l) + 1 = surplus (.layer l) ∧ 2 ≤ surplus (.layer l) := by
    cases l <;> exact ⟨rfl, by decide⟩
  have positive := halting.length_pos
  rw [readLayer]
  refine Reading.andThen_ne_unfinished (finishes.operand halting (by omega)) ?_
  intro left rest done
  obtain ⟨haltingRest, fewer | stuck⟩ :=
    halting_of_done halting ((follows steps).operand l 0 tokens) done
  · exact finishes.chain haltingRest (.inl (by simp only [surplus]; omega))
  · exact finishes.chain haltingRest (.inr ⟨stuck, by omega⟩)

theorem operand_succ (finishes : Finishes steps) {l : Layer} (halting : Halting tokens)
    (enough : 8 * tokens.length + surplus (.operand l) ≤ steps + 1 + 6) :
    readTighter (steps + 1) l tokens ≠ .unfinished := by
  cases l with
  | sum => exact finishes.layer halting (by simp only [surplus] at enough ⊢; omega)
  | product => exact finishes.layer halting (by simp only [surplus] at enough ⊢; omega)
  | power => exact finishes.part halting (by simp only [surplus] at enough ⊢; omega)

/-- Behind an operator that is the last token, there is no operand. -/
theorem startsOperand_of_stuck {l : Layer} {op : InfixOperator} (stuck : Stuck tokens)
    (isOperator : l.operator? (peek tokens) = some op) :
    (peek (advance tokens)).startsOperand = false := by
  obtain ⟨stays, noOpening⟩ := stuck
  rw [stays]
  revert isOperator noOpening
  cases l <;> cases peek tokens <;> simp [Layer.operator?, opens, Token.startsOperand]

theorem chain_succ (finishes : Finishes steps) {l : Layer} {left : Expression}
    (halting : Halting tokens)
    (enough : 8 * tokens.length + surplus (.rest l) ≤ steps + 1 + 6 ∨
      Stuck tokens ∧ 1 ≤ steps + 1) :
    readChain (steps + 1) l left tokens ≠ .unfinished := by
  rw [readChain]
  cases isOperator : l.operator? (peek tokens) with
  | none => simp
  | some op =>
    obtain ⟨haltingBehind, shorter⟩ :=
      halting.advance (Expects.ne_endOfInput (Expects.after_operator 0 isOperator))
    rcases shorter with length | stuck
    · have surpluses : surplus (.operand l) ≤ 5 := by cases l <;> decide
      have room : 8 * tokens.length + 7 ≤ steps + 1 + 6 := by
        refine enough.resolve_right fun stuck => ?_
        rw [stuck.1.1] at length
        omega
      apply afterOperator_ne_unfinished
      refine Reading.andThen_ne_unfinished (finishes.operand haltingBehind (by omega))
        fun right rest done => ?_
      obtain ⟨haltingRest, fewer | stuck⟩ :=
        halting_of_done haltingBehind ((follows steps).operand l 0 _) done
      · exact finishes.chain haltingRest (.inl (by simp only [surplus]; omega))
      · exact finishes.chain haltingRest (.inr ⟨stuck, by omega⟩)
    · simp [afterOperator, startsOperand_of_stuck stuck isOperator]

theorem part_succ (finishes : Finishes steps) (halting : Halting tokens)
    (enough : 8 * tokens.length + surplus .part ≤ steps + 1 + 6) :
    readPart (steps + 1) tokens ≠ .unfinished := by
  simp only [surplus] at enough
  cases isOperator : (peek tokens).prefixOperator? with
  | none =>
    rw [readPart_unprefixed isOperator]
    exact finishes.plain halting isOperator (by omega)
  | some op =>
    obtain ⟨haltingBehind, length⟩ := halting.length_advance (opens_of_prefixOperator? isOperator)
    rw [readPart, isOperator]
    apply afterOperator_ne_unfinished
    exact Reading.andThen_ne_unfinished (finishes.atom haltingBehind (by omega))
      fun _ _ _ => by simp

theorem prefixed_succ (finishes : Finishes steps) {op : PrefixOperator} (halting : Halting tokens)
    (isOperator : (peek tokens).prefixOperator? = some op)
    (enough : 8 * tokens.length ≤ steps + 1 + 5) :
    readAtom (steps + 1) tokens ≠ .unfinished := by
  rw [readAtom_prefixed isOperator]
  exact finishes.part halting (by simp only [surplus]; omega)

theorem plain_succ (finishes : Finishes steps) (halting : Halting tokens)
    (noPrefix : (peek tokens).prefixOperator? = none)
    (enough : 8 * tokens.length ≤ steps + 1 + 7) :
    readAtom (steps + 1) tokens ≠ .unfinished := by
  cases front : peek tokens with
  | leftParen =>
    obtain ⟨haltingBehind, length⟩ := halting.length_advance (by rw [front]; rfl)
    cases filled : closes (peek (advance tokens)) with
    | true =>
      rw [readAtom, front]
      simp [filled]
    | false =>
      rw [readAtom_of_leftParen front filled]
      refine Reading.andThen_ne_unfinished
        (finishes.layer haltingBehind (by simp only [surplus]; omega)) fun inner rest _ => ?_
      split <;> simp
  | prefixWord word =>
    rw [front] at noPrefix
    cases noPrefix
  | minus =>
    rw [front] at noPrefix
    cases noPrefix
  | _ =>
    rw [readAtom, front]
    simp

end Finishes

theorem finishes (steps : Nat) : Finishes steps := by
  induction steps with
  | zero =>
    -- No list of tokens is so short that no step is needed.
    refine ⟨?_, ?_, ?_, ?_, ?_, ?_⟩
    all_goals
      intros
      have positive := Halting.length_pos ‹Halting _›
      omega
  | succ steps inductionHypothesis =>
    exact ⟨inductionHypothesis.layer_succ, inductionHypothesis.operand_succ,
      inductionHypothesis.chain_succ, inductionHypothesis.part_succ,
      inductionHypothesis.prefixed_succ, inductionHypothesis.plain_succ⟩

/-- The parser has an answer on tokens of which the last is not read over and over. -/
theorem parseWithin_ne_unfinished {tokens : List Lexeme} (halting : Halting tokens) :
    parseWithin (enoughSteps tokens) tokens ≠ .unfinished := by
  rw [parseWithin]
  refine Reading.andThen_ne_unfinished ((finishes _).layer halting ?_) fun e rest _ => ?_
  · simp only [surplus, enoughSteps]
    omega
  · split <;> simp

end Parser
end DomainColoring
