import DomainColoring.Proofs.Expression.Parser

/-!
# How far tokens can be right

Which tokens may come next depends on two things only: whether an operand or an operator is
expected, and how many parentheses are open. Layers of operators and what they bind do not matter
to that. The parser steps over a token exactly if it may come next, so where it fails, the tokens
before can be completed to ones it accepts, and no more than they.
-/

namespace DomainColoring.Parser

open Grammar

/-- What is expected next, with a number of parentheses open. -/
inductive Expects where
  | operand (depth : Nat)
  | operator (depth : Nat)
deriving DecidableEq

namespace Expects

/-- What is expected behind a token, if the token may come next. -/
def after : Expects → Token → Option Expects
  | operand depth, .argument => some (operator depth)
  | operand depth, .number _ => some (operator depth)
  | operand depth, .prefixWord _ => some (operand depth)
  | operand depth, .minus => some (operand depth)
  | operand depth, .leftParen => some (operand (depth + 1))
  | operator depth, .plus => some (operand depth)
  | operator depth, .minus => some (operand depth)
  | operator depth, .star => some (operand depth)
  | operator depth, .slash => some (operand depth)
  | operator depth, .caret => some (operand depth)
  | operator (depth + 1), .rightParen => some (operator depth)
  | _, _ => none

/-- What is expected behind tokens, if each of them may come next. -/
def afterAll (expects : Expects) : List Token → Option Expects
  | [] => some expects
  | token :: rest => (expects.after token).bind fun next => next.afterAll rest

/-- A token is neither one that may come next nor the end of an expression. -/
def Refuses (expects : Expects) (token : Token) : Prop :=
  expects.after token = none ∧ ¬ (token = .endOfInput ∧ expects = operator 0)

theorem afterAll_append (expects : Expects) (front behind : List Token) :
    expects.afterAll (front ++ behind) =
      (expects.afterAll front).bind fun next => next.afterAll behind := by
  induction front generalizing expects with
  | nil => rfl
  | cons token rest inductionHypothesis =>
    rw [List.cons_append, afterAll, afterAll]
    cases expects.after token with
    | none => rfl
    | some next => exact inductionHypothesis next

theorem after_endOfInput (expects : Expects) : expects.after .endOfInput = none := by
  cases expects <;> rfl

theorem ne_endOfInput {expects next : Expects} {token : Token}
    (steps : expects.after token = some next) : token ≠ .endOfInput := by
  rintro rfl
  rw [after_endOfInput] at steps
  cases steps

/-- Where an operand is expected, tokens that cannot begin one are refused. -/
theorem refuses_of_startsOperand {depth : Nat} {token : Token}
    (cannot : token.startsOperand = false) : (operand depth).Refuses token := by
  constructor
  · cases token <;> first | rfl | cases cannot
  · rintro ⟨-, same⟩
    cases same

theorem after_operator {l : Layer} {op : InfixOperator} {token : Token} (depth : Nat)
    (isOperator : l.operator? token = some op) :
    (operator depth).after token = some (operand depth) := by
  cases l <;> cases token <;> first | rfl | cases isOperator

theorem after_prefix {op : PrefixOperator} {token : Token} (depth : Nat)
    (isOperator : token.prefixOperator? = some op) :
    (operand depth).after token = some (operand depth) := by
  cases token <;> first | rfl | cases isOperator

/-- Behind a whole expression, only an operator or a closing parenthesis may come. -/
theorem after_of_continues {depth : Nat} {token : Token}
    (stops : continues (.layer .sum) token = false) (noClosing : closes token = false) :
    (operator depth).after token = none := by
  revert stops noClosing
  cases token <;> simp [continues, tighter, Layer.operator?, closes, after]

end Expects

/-- The parser steps over tokens, each of which may come next. -/
inductive Path : Expects → List Lexeme → Expects → List Lexeme → Prop where
  | here {expects tokens} : Path expects tokens expects tokens
  | step {expects next last tokens rest} (steps : expects.after (peek tokens) = some next)
      (others : Path next (advance tokens) last rest) : Path expects tokens last rest

theorem Path.trans {first second third : Expects} {tokens between rest : List Lexeme}
    (upTo : Path first tokens second between) (behind : Path second between third rest) :
    Path first tokens third rest := by
  induction upTo with
  | here => exact behind
  | step steps others inductionHypothesis => exact .step steps (inductionHypothesis behind)

/-- Reading fails at a token that may not come next. The error points there, from the token on
that asks for something else. -/
def FailsAt (expects : Expects) (tokens : List Lexeme) (error : SyntaxError)
    (rest : List Lexeme) : Prop :=
  ∃ asking asked found, Path expects tokens asking asked ∧ Path asking asked found rest ∧
    found.Refuses (peek rest) ∧ error.span = (place asked).merge (place rest)

/-- Reading a symbol comes to where an operator is expected, in front of a token that does not
continue the symbol, or fails at a token that may not come next. -/
def Reaches {α : Type} (s : Symbol) (depth : Nat) (expects : Expects) (tokens : List Lexeme) :
    Reading α → Prop
  | .unfinished => True
  | .failed error rest => FailsAt expects tokens error rest
  | .done _ rest => Path expects tokens (.operator depth) rest ∧ continues s (peek rest) = false

namespace Reaches

variable {α β : Type} {s s' : Symbol} {depth depth' : Nat} {expects next : Expects}
  {tokens rest : List Lexeme} {reading : Reading α}

/-- A reading that begins further on. -/
theorem behind (path : Path expects tokens next rest)
    (reaches : Reaches s depth next rest reading) :
    Reaches s depth expects tokens reading := by
  cases reading with
  | unfinished => trivial
  | failed error left =>
    obtain ⟨asking, asked, found, toAsked, toFound, fault⟩ := reaches
    exact ⟨asking, asked, found, path.trans toAsked, toFound, fault⟩
  | done value left => exact ⟨path.trans reaches.1, reaches.2⟩

/-- A reading after another, both of which keep to this. -/
theorem andThen {following : α → List Lexeme → Reading β}
    (reaches : Reaches s depth expects tokens reading)
    (follows : ∀ value rest, continues s (peek rest) = false →
      Path expects tokens (.operator depth) rest →
      Reaches s' depth' expects tokens (following value rest)) :
    Reaches s' depth' expects tokens (reading.andThen following) := by
  cases reading with
  | unfinished => trivial
  | failed error left => exact reaches
  | done value left => exact follows value left reaches.2 reaches.1

/-- Behind an operator, reading goes on with an operand or fails for want of one. -/
theorem afterOperator {symbol : List Char} {following : List Lexeme → Reading α}
    (steps : expects.after (peek tokens) = some (.operand depth))
    (follows : Reaches s depth (.operand depth) (advance tokens) (following (advance tokens))) :
    Reaches s depth expects tokens (afterOperator symbol tokens following) := by
  rw [Parser.afterOperator]
  split
  · exact follows.behind (.step steps .here)
  · next cannot =>
    rw [Bool.not_eq_true] at cannot
    exact ⟨expects, tokens, .operand depth, .here, .step steps .here,
      Expects.refuses_of_startsOperand cannot, rfl⟩

end Reaches

/-- Every reader, within a number of steps, keeps to what may come next. -/
structure Follows (steps : Nat) : Prop where
  layer : ∀ l depth tokens,
    Reaches (.layer l) depth (.operand depth) tokens (readLayer steps l tokens)
  operand : ∀ l depth tokens,
    Reaches (.operand l) depth (.operand depth) tokens (readTighter steps l tokens)
  chain : ∀ l left depth tokens, continues (.operand l) (peek tokens) = false →
    Reaches (.rest l) depth (.operator depth) tokens (readChain steps l left tokens)
  part : ∀ depth tokens, Reaches .part depth (.operand depth) tokens (readPart steps tokens)
  atom : ∀ depth tokens, Reaches .part depth (.operand depth) tokens (readAtom steps tokens)

namespace Follows

variable {steps : Nat}

theorem layer_succ (follows : Follows steps) (l : Layer) (depth : Nat) (tokens : List Lexeme) :
    Reaches (.layer l) depth (.operand depth) tokens (readLayer (steps + 1) l tokens) := by
  rw [readLayer]
  exact (follows.operand l depth tokens).andThen fun left rest stops path =>
    (follows.chain l left depth rest stops).behind path

theorem operand_succ (follows : Follows steps) (l : Layer) (depth : Nat) (tokens : List Lexeme) :
    Reaches (.operand l) depth (.operand depth) tokens (readTighter (steps + 1) l tokens) := by
  cases l with
  | sum => exact follows.layer .product depth tokens
  | product => exact follows.layer .power depth tokens
  | power => exact follows.part depth tokens

theorem chain_succ (follows : Follows steps) (l : Layer) (left : Expression) (depth : Nat)
    (tokens : List Lexeme) (stops : continues (.operand l) (peek tokens) = false) :
    Reaches (.rest l) depth (.operator depth) tokens (readChain (steps + 1) l left tokens) := by
  rw [readChain]
  cases isOperator : l.operator? (peek tokens) with
  | none =>
    refine ⟨.here, ?_⟩
    change ((l.operator? (peek tokens)).isSome || continues (.operand l) (peek tokens)) = false
    rw [isOperator, stops]
    rfl
  | some op =>
    refine Reaches.afterOperator (Expects.after_operator depth isOperator) ?_
    exact (follows.operand l depth _).andThen fun right rest stopsRight path =>
      (follows.chain l _ depth rest stopsRight).behind path

theorem part_succ (follows : Follows steps) (depth : Nat) (tokens : List Lexeme) :
    Reaches .part depth (.operand depth) tokens (readPart (steps + 1) tokens) := by
  cases isOperator : (peek tokens).prefixOperator? with
  | none =>
    rw [readPart_unprefixed isOperator]
    exact follows.atom depth tokens
  | some op =>
    rw [readPart, isOperator]
    refine Reaches.afterOperator (Expects.after_prefix depth isOperator) ?_
    exact (follows.atom depth _).andThen fun _ _ stops path => ⟨path, stops⟩

theorem atom_succ (follows : Follows steps) (depth : Nat) (tokens : List Lexeme) :
    Reaches .part depth (.operand depth) tokens (readAtom (steps + 1) tokens) := by
  cases front : peek tokens with
  | argument =>
    rw [readAtom, front]
    exact ⟨.step (by rw [front]; rfl) .here, rfl⟩
  | number value =>
    rw [readAtom, front]
    exact ⟨.step (by rw [front]; rfl) .here, rfl⟩
  | leftParen =>
    have opens : Path (.operand depth) tokens (.operand (depth + 1)) (advance tokens) :=
      .step (by rw [front]; rfl) .here
    cases filled : closes (peek (advance tokens)) with
    | true =>
      rw [readAtom, front]
      simp only [filled, if_true]
      refine ⟨_, tokens, _, .here, opens, Expects.refuses_of_startsOperand ?_, rfl⟩
      revert filled
      cases peek (advance tokens) <;> simp [closes, Token.startsOperand]
    | false =>
      rw [readAtom_of_leftParen front filled]
      refine ((follows.layer .sum (depth + 1) _).behind opens).andThen
        fun inner rest stops path => ?_
      split
      · next closed =>
        have closing : peek rest = .rightParen := by
          revert closed
          cases peek rest <;> simp [closes]
        exact ⟨path.trans (.step (by rw [closing]; rfl) .here), rfl⟩
      · next open_ =>
        rw [Bool.not_eq_true] at open_
        refine ⟨_, tokens, _, .here, path, ⟨Expects.after_of_continues stops open_, ?_⟩, rfl⟩
        rintro ⟨-, same⟩
        cases same
  | prefixWord word =>
    rw [readAtom, front]
    exact follows.part depth tokens
  | minus =>
    rw [readAtom, front]
    exact follows.part depth tokens
  | _ =>
    rw [readAtom, front]
    refine ⟨_, tokens, _, .here, .here, Expects.refuses_of_startsOperand (by rw [front]; rfl), ?_⟩
    simp [Span.merge]

end Follows

theorem follows (steps : Nat) : Follows steps := by
  induction steps with
  | zero => exact ⟨fun _ _ _ => trivial, fun _ _ _ => trivial, fun _ _ _ _ _ => trivial,
      fun _ _ => trivial, fun _ _ => trivial⟩
  | succ steps inductionHypothesis =>
    exact ⟨inductionHypothesis.layer_succ, inductionHypothesis.operand_succ,
      inductionHypothesis.chain_succ, inductionHypothesis.part_succ,
      inductionHypothesis.atom_succ⟩

/-- What was read to the end was stepped over up to the end of the input. -/
theorem path_of_done {steps : Nat} {tokens rest : List Lexeme} {e : Expression}
    (read : parseWithin steps tokens = .done e rest) :
    Path (.operand 0) tokens (.operator 0) rest ∧ peek rest = .endOfInput := by
  have reaches := (follows steps).layer .sum 0 tokens
  rw [parseWithin] at read
  cases found : readLayer steps .sum tokens with
  | unfinished =>
    rw [found] at read
    cases read
  | failed error left =>
    rw [found] at read
    cases read
  | done value left =>
    rw [found] at read reaches
    simp only [Reading.andThen] at read
    split at read
    · next atEnd =>
      cases read
      exact ⟨reaches.1, isEnd_iff.mp atEnd⟩
    · cases read

/-- Reading fails where a token may not come next, left over behind an expression or in it. -/
theorem failsAt_of_failed {steps : Nat} {tokens rest : List Lexeme} {error : SyntaxError}
    (read : parseWithin steps tokens = .failed error rest) :
    FailsAt (.operand 0) tokens error rest := by
  have reaches := (follows steps).layer .sum 0 tokens
  rw [parseWithin] at read
  cases found : readLayer steps .sum tokens with
  | unfinished =>
    rw [found] at read
    cases read
  | failed error left =>
    rw [found] at read reaches
    cases read
    exact reaches
  | done value left =>
    rw [found] at read reaches
    obtain ⟨path, stops⟩ := reaches
    simp only [Reading.andThen] at read
    split at read
    · cases read
    · next notEnd =>
      cases read
      refine ⟨_, rest, _, path, .here, ⟨?_, fun atEnd => notEnd (isEnd_iff.mpr atEnd.1)⟩, ?_⟩
      · cases token : peek rest <;> rw [token] at stops <;> first | rfl | cases stops
      · simp [Span.merge]

/-- In front of the end of the input, a path leaves what it stepped over behind. -/
theorem Path.ended {expects last : Expects} {tokens rest : List Lexeme}
    (path : Path expects tokens last rest) (ended : Ended tokens) :
    Ended rest ∧ ∃ front, tokens = front ++ rest ∧
      expects.afterAll (front.map Lexeme.token) = some last := by
  induction path with
  | here => exact ⟨ended, [], rfl, rfl⟩
  | @step expects next last tokens rest steps others inductionHypothesis =>
    obtain ⟨first, shape, token, endedBehind⟩ := ended.advance (Expects.ne_endOfInput steps)
    obtain ⟨endedRest, front, behind, all⟩ := inductionHypothesis endedBehind
    refine ⟨endedRest, first :: front, ?_, ?_⟩
    · rw [shape, behind, List.cons_append]
    · rw [List.map_cons, Expects.afterAll, token, steps]
      exact all

/-- A path to the end of the input leaves what it stepped over behind, whichever list of tokens it
is in: on a list without the end of the input, no path comes to it. -/
theorem Path.toEnd {expects last : Expects} {tokens rest : List Lexeme}
    (path : Path expects tokens last rest) (some_ : tokens ≠ []) (atEnd : peek rest = .endOfInput) :
    rest ≠ [] ∧ ∃ front, tokens = front ++ rest ∧
      expects.afterAll (front.map Lexeme.token) = some last := by
  induction path with
  | here => exact ⟨some_, [], rfl, rfl⟩
  | @step expects next last tokens rest steps others inductionHypothesis =>
    obtain ⟨first, more, rfl⟩ := List.exists_cons_of_ne_nil some_
    have inside := Expects.ne_endOfInput steps
    cases more with
    | nil =>
      -- The last token is not stepped over, so it stays in front for good.
      obtain ⟨left, front, shape, -⟩ := inductionHypothesis some_ atEnd
      cases front with
      | nil =>
        rw [List.nil_append] at shape
        rw [← shape] at atEnd
        exact absurd atEnd inside
      | cons token front =>
        obtain ⟨-, none⟩ := List.append_eq_nil_iff.mp (List.cons.inj shape).2.symm
        exact absurd none left
    | cons second more =>
      obtain ⟨left, front, shape, all⟩ := inductionHypothesis (List.cons_ne_nil _ _) atEnd
      refine ⟨left, first :: front, congrArg (first :: ·) shape, ?_⟩
      rw [List.map_cons, Expects.afterAll, ← peek_cons first (second :: more), steps]
      exact all

/-- The parser accepts a list of tokens. -/
def Accepted (tokens : List Lexeme) : Prop :=
  ∃ e, parse tokens = .ok e

/-- In a list that is accepted, each token in front of the end of the input may come next, and
behind them an expression is whole. -/
theorem Accepted.afterAll {tokens : List Lexeme} (accepted : Accepted tokens) :
    ∃ front last behind, tokens = front ++ last :: behind ∧ last.token = .endOfInput ∧
      (Expects.operand 0).afterAll (front.map Lexeme.token) = some (.operator 0) := by
  obtain ⟨e, parsed⟩ := accepted
  rw [parse] at parsed
  cases found : parseWithin (enoughSteps tokens) tokens with
  | unfinished =>
    rw [found] at parsed
    cases parsed
  | failed error left =>
    rw [found] at parsed
    cases parsed
  | done value left =>
    obtain ⟨path, atEnd⟩ := path_of_done found
    have some_ : tokens ≠ [] := by
      rintro rfl
      rcases path with _ | ⟨steps, others⟩
      exact Expects.ne_endOfInput steps rfl
    obtain ⟨more, front, shape, all⟩ := path.toEnd some_ atEnd
    obtain ⟨last, behind, rfl⟩ := List.exists_cons_of_ne_nil more
    exact ⟨front, last, behind, shape, atEnd, all⟩

/-- What is refused behind tokens is nowhere behind them in a whole expression. -/
theorem Expects.not_refuses_of_whole {expects reached : Expects}
    {front behind before others : List Lexeme} {last found : Lexeme}
    (whole : expects.afterAll (front.map Lexeme.token) = some (.operator 0))
    (isEnd : last.token = .endOfInput)
    (upTo : expects.afterAll (before.map Lexeme.token) = some reached)
    (shape : front ++ last :: behind = before ++ found :: others) :
    ¬ reached.Refuses found.token := by
  rintro ⟨refused, notWhole⟩
  induction front generalizing expects before with
  | nil =>
    cases whole
    cases before with
    | nil =>
      cases upTo
      obtain ⟨rfl, -⟩ := List.cons.inj shape
      exact notWhole ⟨isEnd, rfl⟩
    | cons first more =>
      obtain ⟨rfl, -⟩ := List.cons.inj shape
      rw [List.map_cons, Expects.afterAll, isEnd] at upTo
      cases upTo
  | cons first more inductionHypothesis =>
    rw [List.map_cons, Expects.afterAll] at whole
    obtain ⟨next, steps, wholeRest⟩ := Option.bind_eq_some_iff.mp whole
    cases before with
    | nil =>
      cases upTo
      obtain ⟨rfl, -⟩ := List.cons.inj shape
      rw [refused] at steps
      cases steps
    | cons first' more' =>
      obtain ⟨rfl, shapeRest⟩ := List.cons.inj shape
      rw [List.map_cons, Expects.afterAll, steps] at upTo
      exact inductionHypothesis wholeRest upTo shapeRest

end DomainColoring.Parser
