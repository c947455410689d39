import DomainColoring.Proofs.Expression.Termination

/-!
# Answers of the parser

An answer that comes within some number of steps is the answer within every greater number. So the
parser returns on a list of tokens if it has an answer within some number of steps, and what it
returns does not depend on the number. Nothing behind the end of the input is looked at, and
without an end of the input no list is accepted.
-/

namespace DomainColoring

namespace Reading

variable {α β : Type}

/-- A reading that has no answer yet, or the answer of another. -/
def Refines (reading later : Reading α) : Prop :=
  reading = .unfinished ∨ later = reading

theorem Refines.andThen {reading later : Reading α} {next nextLater : α → List Lexeme → Reading β}
    (refines : reading.Refines later)
    (follows : ∀ value rest, (next value rest).Refines (nextLater value rest)) :
    (reading.andThen next).Refines (later.andThen nextLater) := by
  rcases refines with rfl | rfl
  · exact .inl rfl
  · cases later with
    | unfinished => exact .inl rfl
    | failed error rest => exact .inr rfl
    | done value rest => exact follows value rest

/-- The reading with more tokens behind those that are left. -/
def inFrontOf (reading : Reading α) (behind : List Lexeme) : Reading α :=
  match reading with
  | unfinished => unfinished
  | failed error rest => failed error (rest ++ behind)
  | done value rest => done value (rest ++ behind)

theorem andThen_inFrontOf {reading : Reading α} {next : α → List Lexeme → Reading β}
    {behind : List Lexeme}
    (follows : ∀ value rest, reading = .done value rest →
      next value (rest ++ behind) = (next value rest).inFrontOf behind) :
    (reading.inFrontOf behind).andThen next = (reading.andThen next).inFrontOf behind := by
  cases reading with
  | unfinished => rfl
  | failed error rest => rfl
  | done value rest => exact follows value rest rfl

/-- The answer of a reading, if there is one. -/
def answer? : Reading α → Option (Except SyntaxError α)
  | unfinished => none
  | failed error _ => some (.error error)
  | done value _ => some (.ok value)

theorem answer?_inFrontOf (reading : Reading α) (behind : List Lexeme) :
    (reading.inFrontOf behind).answer? = reading.answer? := by
  cases reading <;> rfl

end Reading

namespace Parser

open Grammar

theorem afterOperator_refines {α : Type} {symbol : List Char} {tokens : List Lexeme}
    {next nextLater : List Lexeme → Reading α}
    (follows : (next (advance tokens)).Refines (nextLater (advance tokens))) :
    (afterOperator symbol tokens next).Refines (afterOperator symbol tokens nextLater) := by
  unfold afterOperator
  simp only
  split
  · exact follows
  · exact .inr rfl

/-- A step more does not change an answer. -/
structure Stable (steps : Nat) : Prop where
  layer : ∀ l tokens, (readLayer steps l tokens).Refines (readLayer (steps + 1) l tokens)
  operand : ∀ l tokens, (readTighter steps l tokens).Refines (readTighter (steps + 1) l tokens)
  chain : ∀ l left tokens,
    (readChain steps l left tokens).Refines (readChain (steps + 1) l left tokens)
  part : ∀ tokens, (readPart steps tokens).Refines (readPart (steps + 1) tokens)
  atom : ∀ tokens, (readAtom steps tokens).Refines (readAtom (steps + 1) tokens)

namespace Stable

variable {steps : Nat}

theorem layer_succ (stable : Stable steps) (l : Layer) (tokens : List Lexeme) :
    (readLayer (steps + 1) l tokens).Refines (readLayer (steps + 2) l tokens) := by
  rw [readLayer, readLayer]
  exact (stable.operand l tokens).andThen (stable.chain l)

theorem operand_succ (stable : Stable steps) (l : Layer) (tokens : List Lexeme) :
    (readTighter (steps + 1) l tokens).Refines (readTighter (steps + 2) l tokens) := by
  cases l with
  | sum => exact stable.layer .product tokens
  | product => exact stable.layer .power tokens
  | power => exact stable.part tokens

theorem chain_succ (stable : Stable steps) (l : Layer) (left : Expression) (tokens : List Lexeme) :
    (readChain (steps + 1) l left tokens).Refines (readChain (steps + 2) l left tokens) := by
  rw [readChain, readChain]
  cases l.operator? (peek tokens) with
  | none => exact .inr rfl
  | some op =>
    exact afterOperator_refines ((stable.operand l _).andThen fun right rest =>
      stable.chain l (.infixed op left right) rest)

theorem part_succ (stable : Stable steps) (tokens : List Lexeme) :
    (readPart (steps + 1) tokens).Refines (readPart (steps + 2) tokens) := by
  rw [readPart, readPart]
  cases (peek tokens).prefixOperator? with
  | none => exact stable.atom tokens
  | some op =>
    exact afterOperator_refines ((stable.atom _).andThen fun _ _ => .inr rfl)

theorem atom_succ (stable : Stable steps) (tokens : List Lexeme) :
    (readAtom (steps + 1) tokens).Refines (readAtom (steps + 2) tokens) := by
  cases front : peek tokens with
  | leftParen =>
    cases filled : closes (peek (advance tokens)) with
    | true =>
      right
      rw [readAtom, readAtom, front]
      simp [filled]
    | false =>
      rw [readAtom_of_leftParen front filled, readAtom_of_leftParen front filled]
      exact (stable.layer .sum _).andThen fun _ _ => .inr rfl
  | prefixWord word =>
    rw [readAtom, readAtom, front]
    exact stable.part tokens
  | minus =>
    rw [readAtom, readAtom, front]
    exact stable.part tokens
  | _ =>
    right
    rw [readAtom, readAtom, front]

end Stable

theorem stable (steps : Nat) : Stable steps := by
  induction steps with
  | zero =>
    exact ⟨fun _ _ => .inl rfl, fun _ _ => .inl rfl, fun _ _ _ => .inl rfl, fun _ => .inl rfl,
      fun _ => .inl rfl⟩
  | succ steps inductionHypothesis =>
    exact ⟨inductionHypothesis.layer_succ, inductionHypothesis.operand_succ,
      inductionHypothesis.chain_succ, inductionHypothesis.part_succ,
      inductionHypothesis.atom_succ⟩

/-- More steps do not change an answer. -/
theorem parseWithin_of_le {steps more : Nat} (few : steps ≤ more) {tokens : List Lexeme}
    (finished : parseWithin steps tokens ≠ .unfinished) :
    parseWithin more tokens = parseWithin steps tokens := by
  induction few with
  | refl => rfl
  | @step more few inductionHypothesis =>
    rw [← inductionHypothesis] at finished ⊢
    have refines : (parseWithin more tokens).Refines (parseWithin (more + 1) tokens) :=
      ((stable more).layer .sum tokens).andThen fun _ _ => .inr rfl
    exact refines.resolve_left finished

/-- The parser returns an answer, given enough steps. -/
def Returns (tokens : List Lexeme) (answer : Except SyntaxError Expression) : Prop :=
  ∃ steps, (parseWithin steps tokens).answer? = some answer

/-- What the parser returns does not depend on the number of steps. -/
theorem Returns.unique {tokens : List Lexeme} {answer other : Except SyntaxError Expression}
    (returns : Returns tokens answer) (returnsOther : Returns tokens other) : answer = other := by
  obtain ⟨steps, found⟩ := returns
  obtain ⟨more, foundOther⟩ := returnsOther
  have finished : ∀ {n found}, (parseWithin n tokens).answer? = some found →
      parseWithin n tokens ≠ .unfinished := by
    intro n found same unfinished
    rw [unfinished] at same
    cases same
  rw [← parseWithin_of_le (Nat.le_max_left steps more) (finished found)] at found
  rw [← parseWithin_of_le (Nat.le_max_right steps more) (finished foundOther)] at foundOther
  exact Option.some.inj (found.symm.trans foundOther)

theorem parse_eq_of_answer? {tokens : List Lexeme} {answer : Except SyntaxError Expression}
    (found : (parseWithin (enoughSteps tokens) tokens).answer? = some answer) :
    parse tokens = answer := by
  rw [parse]
  cases read : parseWithin (enoughSteps tokens) tokens with
  | unfinished =>
    rw [read] at found
    cases found
  | failed error rest =>
    rw [read] at found
    exact Option.some.inj found
  | done e rest =>
    rw [read] at found
    exact Option.some.inj found

theorem returns_parse {tokens : List Lexeme}
    (finished : parseWithin (enoughSteps tokens) tokens ≠ .unfinished) :
    Returns tokens (parse tokens) := by
  refine ⟨enoughSteps tokens, ?_⟩
  cases read : (parseWithin (enoughSteps tokens) tokens).answer? with
  | none =>
    cases none : parseWithin (enoughSteps tokens) tokens with
    | unfinished => exact absurd none finished
    | failed error rest =>
      rw [none] at read
      cases read
    | done e rest =>
      rw [none] at read
      cases read
  | some answer => rw [parse_eq_of_answer? read]

/-- The tokens have the end of the input among them. -/
def HasEnd (tokens : List Lexeme) : Prop :=
  ∃ lexeme ∈ tokens, lexeme.token = .endOfInput

theorem HasEnd.halting {tokens : List Lexeme} (hasEnd : HasEnd tokens) : Halting tokens := by
  obtain ⟨last, member, isEnd⟩ := hasEnd
  obtain ⟨before, behind, rfl⟩ := List.append_of_mem member
  exact ⟨before, last, behind, rfl, .inl isEnd⟩

theorem HasEnd.peek_append {tokens : List Lexeme} (hasEnd : HasEnd tokens)
    (behind : List Lexeme) :
    peek (tokens ++ behind) = peek tokens ∧ place (tokens ++ behind) = place tokens := by
  obtain ⟨last, member, -⟩ := hasEnd
  obtain ⟨first, rest, rfl⟩ := List.exists_cons_of_ne_nil (List.ne_nil_of_mem member)
  exact ⟨rfl, rfl⟩

/-- What is stepped over is in front of the end of the input. -/
theorem HasEnd.advance {tokens : List Lexeme} (hasEnd : HasEnd tokens)
    (inside : peek tokens ≠ .endOfInput) :
    HasEnd (advance tokens) ∧
      ∀ behind, Parser.advance (tokens ++ behind) = Parser.advance tokens ++ behind := by
  obtain ⟨last, member, isEnd⟩ := hasEnd
  match tokens, member with
  | [_], member =>
    rw [List.mem_singleton.mp member] at isEnd
    exact absurd isEnd inside
  | first :: second :: rest, member =>
    have notFirst : last ≠ first := by
      rintro rfl
      exact inside isEnd
    exact ⟨⟨last, (List.mem_cons.mp member).resolve_left notFirst, isEnd⟩, fun _ => rfl⟩

theorem Path.hasEnd {expects last : Expects} {tokens rest : List Lexeme}
    (path : Path expects tokens last rest) (hasEnd : HasEnd tokens) : HasEnd rest := by
  induction path with
  | here => exact hasEnd
  | step steps others inductionHypothesis =>
    exact inductionHypothesis (hasEnd.advance (Expects.ne_endOfInput steps)).1

theorem hasEnd_of_done {s : Symbol} {depth : Nat} {tokens rest : List Lexeme} {α : Type}
    {value : α} {reading : Reading α} (hasEnd : HasEnd tokens)
    (reaches : Reaches s depth (.operand depth) tokens reading)
    (done : reading = .done value rest) : HasEnd rest := by
  rw [done] at reaches
  exact reaches.1.hasEnd hasEnd

theorem afterOperator_inFrontOf {α : Type} {symbol : List Char} {tokens behind : List Lexeme}
    {next : List Lexeme → Reading α} (hasEnd : HasEnd tokens)
    (inside : peek tokens ≠ .endOfInput)
    (follows : next (advance tokens ++ behind) = (next (advance tokens)).inFrontOf behind) :
    afterOperator symbol (tokens ++ behind) next =
      (afterOperator symbol tokens next).inFrontOf behind := by
  obtain ⟨hasEndBehind, advanced⟩ := hasEnd.advance inside
  unfold afterOperator
  simp only [advanced, (hasEnd.peek_append behind).2, (hasEndBehind.peek_append behind).1,
    (hasEndBehind.peek_append behind).2]
  split
  · exact follows
  · rfl

/-- What stands behind the end of the input makes no difference to any reader. -/
structure Local (steps : Nat) : Prop where
  layer : ∀ l {tokens} behind, HasEnd tokens →
    readLayer steps l (tokens ++ behind) = (readLayer steps l tokens).inFrontOf behind
  operand : ∀ l {tokens} behind, HasEnd tokens →
    readTighter steps l (tokens ++ behind) = (readTighter steps l tokens).inFrontOf behind
  chain : ∀ l left {tokens} behind, HasEnd tokens →
    readChain steps l left (tokens ++ behind) = (readChain steps l left tokens).inFrontOf behind
  part : ∀ {tokens} behind, HasEnd tokens →
    readPart steps (tokens ++ behind) = (readPart steps tokens).inFrontOf behind
  atom : ∀ {tokens} behind, HasEnd tokens →
    readAtom steps (tokens ++ behind) = (readAtom steps tokens).inFrontOf behind

namespace Local

variable {steps : Nat} {tokens : List Lexeme}

theorem layer_succ (locality : Local steps) (l : Layer) (behind : List Lexeme)
    (hasEnd : HasEnd tokens) :
    readLayer (steps + 1) l (tokens ++ behind) =
      (readLayer (steps + 1) l tokens).inFrontOf behind := by
  rw [readLayer, readLayer, locality.operand l behind hasEnd]
  exact Reading.andThen_inFrontOf fun left rest done =>
    locality.chain l left behind (hasEnd_of_done hasEnd ((follows steps).operand l 0 tokens) done)

theorem operand_succ (locality : Local steps) (l : Layer) (behind : List Lexeme)
    (hasEnd : HasEnd tokens) :
    readTighter (steps + 1) l (tokens ++ behind) =
      (readTighter (steps + 1) l tokens).inFrontOf behind := by
  cases l with
  | sum => exact locality.layer .product behind hasEnd
  | product => exact locality.layer .power behind hasEnd
  | power => exact locality.part behind hasEnd

theorem chain_succ (locality : Local steps) (l : Layer) (left : Expression)
    (behind : List Lexeme) (hasEnd : HasEnd tokens) :
    readChain (steps + 1) l left (tokens ++ behind) =
      (readChain (steps + 1) l left tokens).inFrontOf behind := by
  rw [readChain, readChain, (hasEnd.peek_append behind).1]
  cases isOperator : l.operator? (peek tokens) with
  | none => rfl
  | some op =>
    have inside := Expects.ne_endOfInput (Expects.after_operator 0 isOperator)
    have hasEndBehind := (hasEnd.advance inside).1
    refine afterOperator_inFrontOf hasEnd inside ?_
    rw [locality.operand l behind hasEndBehind]
    exact Reading.andThen_inFrontOf fun right rest done =>
      locality.chain l _ behind
        (hasEnd_of_done hasEndBehind ((follows steps).operand l 0 _) done)

theorem part_succ (locality : Local steps) (behind : List Lexeme) (hasEnd : HasEnd tokens) :
    readPart (steps + 1) (tokens ++ behind) =
      (readPart (steps + 1) tokens).inFrontOf behind := by
  rw [readPart, readPart, (hasEnd.peek_append behind).1]
  cases isOperator : (peek tokens).prefixOperator? with
  | none => exact locality.atom behind hasEnd
  | some op =>
    have inside := Expects.ne_endOfInput (Expects.after_prefix 0 isOperator)
    refine afterOperator_inFrontOf hasEnd inside ?_
    rw [locality.atom behind (hasEnd.advance inside).1]
    exact Reading.andThen_inFrontOf fun _ _ _ => rfl

theorem atom_succ (locality : Local steps) (behind : List Lexeme) (hasEnd : HasEnd tokens) :
    readAtom (steps + 1) (tokens ++ behind) =
      (readAtom (steps + 1) tokens).inFrontOf behind := by
  have front := (hasEnd.peek_append behind).1
  cases token : peek tokens with
  | leftParen =>
    obtain ⟨hasEndBehind, advanced⟩ := hasEnd.advance (by simp [token])
    have inside := (hasEndBehind.peek_append behind).1
    have place := (hasEnd.peek_append behind).2
    cases filled : closes (peek (advance tokens)) with
    | true =>
      rw [readAtom, readAtom, front, token]
      simp only [advanced, inside, filled, if_true, place, (hasEndBehind.peek_append behind).2]
      rfl
    | false =>
      rw [readAtom_of_leftParen token filled,
        readAtom_of_leftParen (by rw [front, token]) (by rw [advanced, inside, filled]), advanced,
        locality.layer .sum behind hasEndBehind, place]
      refine Reading.andThen_inFrontOf fun inner rest done => ?_
      have hasEndRest := hasEnd_of_done hasEndBehind ((follows steps).layer .sum 0 _) done
      obtain ⟨peekRest, placeRest⟩ := hasEndRest.peek_append behind
      rw [peekRest, placeRest]
      split
      · next closed =>
        rw [(hasEndRest.advance (by
          intro atEnd
          rw [atEnd] at closed
          cases closed)).2 behind]
        rfl
      · rfl
  | prefixWord word =>
    rw [readAtom, readAtom, front, token]
    exact locality.part behind hasEnd
  | minus =>
    rw [readAtom, readAtom, front, token]
    exact locality.part behind hasEnd
  | argument =>
    rw [readAtom, readAtom, front, token]
    simp only [(hasEnd.advance (by simp [token])).2 behind]
    rfl
  | number value =>
    rw [readAtom, readAtom, front, token]
    simp only [(hasEnd.advance (by simp [token])).2 behind]
    rfl
  | _ =>
    rw [readAtom, readAtom, front, token]
    simp only [(hasEnd.peek_append behind).2]
    rfl

end Local

theorem locality (steps : Nat) : Local steps := by
  induction steps with
  | zero =>
    exact ⟨fun _ _ _ _ => rfl, fun _ _ _ _ => rfl, fun _ _ _ _ _ => rfl, fun _ _ => rfl,
      fun _ _ => rfl⟩
  | succ steps inductionHypothesis =>
    exact ⟨fun l _ => inductionHypothesis.layer_succ l,
      fun l _ => inductionHypothesis.operand_succ l,
      fun l left _ => inductionHypothesis.chain_succ l left,
      inductionHypothesis.part_succ, inductionHypothesis.atom_succ⟩

theorem parseWithin_append {steps : Nat} {tokens : List Lexeme} (behind : List Lexeme)
    (hasEnd : HasEnd tokens) :
    parseWithin steps (tokens ++ behind) = (parseWithin steps tokens).inFrontOf behind := by
  rw [parseWithin, parseWithin, (locality steps).layer .sum behind hasEnd]
  refine Reading.andThen_inFrontOf fun e rest done => ?_
  have hasEndRest := hasEnd_of_done hasEnd ((follows steps).layer .sum 0 _) done
  rw [(hasEndRest.peek_append behind).1, (hasEndRest.peek_append behind).2]
  split <;> rfl

theorem Returns.append {tokens : List Lexeme} {answer : Except SyntaxError Expression}
    (returns : Returns tokens answer) (hasEnd : HasEnd tokens) (behind : List Lexeme) :
    Returns (tokens ++ behind) answer := by
  obtain ⟨steps, found⟩ := returns
  refine ⟨steps, ?_⟩
  rw [parseWithin_append behind hasEnd, Reading.answer?_inFrontOf, found]

/-- Without an end of the input, there is none to stop in front of. -/
theorem Returns.hasEnd {tokens : List Lexeme} {e : Expression} (returns : Returns tokens (.ok e)) :
    HasEnd tokens := by
  obtain ⟨steps, found⟩ := returns
  cases read : parseWithin steps tokens with
  | unfinished =>
    rw [read] at found
    cases found
  | failed error rest =>
    rw [read] at found
    cases found
  | done value rest =>
    obtain ⟨path, atEnd⟩ := path_of_done read
    have some_ : tokens ≠ [] := by
      rintro rfl
      rcases path with _ | ⟨steps, others⟩
      exact Expects.ne_endOfInput steps rfl
    obtain ⟨left, front, rfl, -⟩ := path.toEnd some_ atEnd
    obtain ⟨last, behind, rfl⟩ := List.exists_cons_of_ne_nil left
    exact ⟨last, by simp, atEnd⟩

/-- Tokens behind the end of the input make no difference. -/
theorem HasEnd.parse_append {tokens : List Lexeme} (hasEnd : HasEnd tokens)
    (behind : List Lexeme) : parse (tokens ++ behind) = parse tokens := by
  have hasEndToo : HasEnd (tokens ++ behind) := by
    obtain ⟨last, member, isEnd⟩ := hasEnd
    exact ⟨last, List.mem_append_left _ member, isEnd⟩
  have returns : Returns tokens (parse tokens) :=
    returns_parse (parseWithin_ne_unfinished hasEnd.halting)
  exact (returns_parse (parseWithin_ne_unfinished hasEndToo.halting)).unique
    (returns.append hasEnd behind)

/-- Of the ends of the input, one comes first. -/
theorem HasEnd.exists_first {tokens : List Lexeme} (hasEnd : HasEnd tokens) :
    ∃ before last behind, tokens = before ++ last :: behind ∧ last.token = .endOfInput ∧
      ∀ lexeme ∈ before, lexeme.token ≠ .endOfInput := by
  induction tokens with
  | nil =>
    obtain ⟨last, member, -⟩ := hasEnd
    cases member
  | cons first rest inductionHypothesis =>
    by_cases atOnce : first.token = .endOfInput
    · exact ⟨[], first, rest, rfl, atOnce, nofun⟩
    · obtain ⟨last, member, isEnd⟩ := hasEnd
      have later : HasEnd rest := by
        rcases List.mem_cons.mp member with rfl | inRest
        · exact absurd isEnd atOnce
        · exact ⟨last, inRest, isEnd⟩
      obtain ⟨before, last', behind, rfl, isEnd', others⟩ := inductionHypothesis later
      exact ⟨first :: before, last', behind, rfl, isEnd', List.forall_mem_cons.mpr ⟨atOnce, others⟩⟩

/-- An accepted list has an end of the input, and is accepted for what stands in front of it. -/
theorem exists_of_parse_eq_ok {tokens : List Lexeme} {e : Expression}
    (accepted : parse tokens = .ok e) :
    ∃ before last behind, tokens = before ++ last :: behind ∧ last.token = .endOfInput ∧
      (∀ lexeme ∈ before, lexeme.token ≠ .endOfInput) ∧ parse (before ++ [last]) = .ok e := by
  have finished : parseWithin (enoughSteps tokens) tokens ≠ .unfinished := by
    intro unfinished
    rw [parse, unfinished] at accepted
    cases accepted
  have returns := returns_parse finished
  rw [accepted] at returns
  obtain ⟨before, last, behind, rfl, isEnd, others⟩ := returns.hasEnd.exists_first
  have hasEnd : HasEnd (before ++ [last]) := ⟨last, by simp, isEnd⟩
  refine ⟨before, last, behind, rfl, isEnd, others, ?_⟩
  rw [← hasEnd.parse_append behind, List.append_assoc]
  exact accepted

theorem returns_nil : Returns [] (parse []) :=
  returns_parse nofun

/-- The parser returns on every list that is empty, has the end of the input in it, or has a last
token other than a prefix word, a minus sign or an opening parenthesis; and what it returns there
is its one answer, however many steps it is given. Tokens behind the end of the input make no
difference. A list without an end of the input is never accepted, whatever its last token is. -/
theorem returns_up_to_end :
    (∀ tokens : List Lexeme, (tokens = [] ∨ (∃ lexeme ∈ tokens, lexeme.token = .endOfInput) ∨
        ∃ before last, tokens = before ++ [last] ∧
          (∀ op, last.token ≠ .prefixWord op) ∧ last.token ≠ .minus ∧ last.token ≠ .leftParen) →
      Returns tokens (parse tokens) ∧ ∀ answer, Returns tokens answer → answer = parse tokens) ∧
    (∀ (before : List Lexeme) (last : Lexeme) (behind : List Lexeme), last.token = .endOfInput →
      parse (before ++ [last] ++ behind) = parse (before ++ [last])) ∧
    ∀ tokens : List Lexeme, (∀ lexeme ∈ tokens, lexeme.token ≠ .endOfInput) →
      ∀ answer, Returns tokens answer → ∃ error, answer = .error error := by
  have returns : ∀ {tokens}, Halting tokens → Returns tokens (parse tokens) :=
    fun halting => returns_parse (parseWithin_ne_unfinished halting)
  refine ⟨fun tokens final => ?_, fun before last behind isEnd => ?_,
    fun tokens noEnd answer found => ?_⟩
  · have found : Returns tokens (parse tokens) := by
      rcases final with rfl | hasEnd | ⟨before, last, rfl, noWord, noMinus, noParenthesis⟩
      · exact returns_nil
      · exact returns (HasEnd.halting hasEnd)
      · refine returns ⟨before, last, [], rfl, .inr ⟨rfl, ?_⟩⟩
        revert noWord noMinus noParenthesis
        cases last.token <;> simp [opens]
    exact ⟨found, fun answer other => other.unique found⟩
  · have hasEnd : HasEnd (before ++ [last]) := ⟨last, by simp, isEnd⟩
    have hasEndToo : HasEnd (before ++ [last] ++ behind) := ⟨last, by simp, isEnd⟩
    exact (returns hasEndToo.halting).unique ((returns hasEnd.halting).append hasEnd behind)
  · cases answer with
    | error error => exact ⟨error, rfl⟩
    | ok e =>
      obtain ⟨last, member, isEnd⟩ := found.hasEnd
      exact absurd isEnd (noEnd last member)

/-- A parenthesis that is closed twice over, as its last token is read again and again. -/
theorem returns_up_to_end_closed :
    let tokens : List Lexeme := [⟨.leftParen, 0, 1⟩, ⟨.leftParen, 1, 2⟩, ⟨.argument, 2, 3⟩,
      ⟨.rightParen, 3, 4⟩]
    parse tokens = .error ⟨.leftOver .rightParen, 3, 4⟩ ∧ Returns tokens (parse tokens) ∧
      parse ([⟨.argument, 0, 1⟩] ++ [⟨.endOfInput, 1, 1⟩] ++ tokens) =
        parse ([⟨.argument, 0, 1⟩] ++ [⟨.endOfInput, 1, 1⟩]) ∧
      ∀ answer, Returns tokens answer → ∃ error, answer = .error error := by
  intro tokens
  obtain ⟨returns, upToEnd, refused⟩ := returns_up_to_end
  refine ⟨rfl, (returns tokens (.inr (.inr ⟨tokens.take 3, ⟨.rightParen, 3, 4⟩, rfl, nofun, nofun,
    nofun⟩))).1, upToEnd [_] _ tokens rfl, refused tokens ?_⟩
  intro lexeme member
  simp only [tokens, List.mem_cons, List.not_mem_nil, or_false] at member
  rcases member with rfl | rfl | rfl | rfl <;> exact nofun

end Parser
end DomainColoring
