import DomainColoring.Proofs.Expression.EndOfInput
import DomainColoring.Proofs.Expression.Evaluation
import DomainColoring.Proofs.Expression.Outline
import DomainColoring.Proofs.Outcome

/-!
# Name patterns of parsed functions

The name pattern of a function that the parser makes is written off its derivation: operators down
to the argument, and a number for each greatest part without the argument. How the pattern came
about, by putting patterns into the places of others, leaves no trace in it.
-/

namespace DomainColoring

/-- Whether a token is the argument. -/
def Token.isArgument : Token → Bool
  | argument => true
  | _ => false

namespace Expression

/-- An expression as a pattern. A part without the argument is worked out and written as a number;
in all others operators are written, the infix ones in parentheses. -/
def shown : Expression → List Char
  | argument => [NamePattern.placeholder]
  | number value => Literal.write value
  | prefixed op e =>
    if e.usesArgument then op.lead ++ e.shown
    else Literal.write (op.apply (e.value .zero))
  | infixed op left right =>
    if left.usesArgument || right.usesArgument then
      '(' :: (left.shown ++ op.symbol ++ right.shown ++ [')'])
    else Literal.write (op.apply (left.value .zero) (right.value .zero))

/-- How often the argument is in an expression. -/
def arguments : Expression → Nat
  | argument => 1
  | number _ => 0
  | prefixed _ e => e.arguments
  | infixed _ left right => left.arguments + right.arguments

theorem usesArgument_iff (e : Expression) : e.usesArgument = true ↔ 0 < e.arguments := by
  induction e with
  | argument => simp [usesArgument, arguments]
  | number value => simp [usesArgument, arguments]
  | prefixed op e inductionHypothesis => exact inductionHypothesis
  | infixed op left right leftUses rightUses =>
    rw [usesArgument, Bool.or_eq_true, leftUses, rightUses, arguments]
    omega

theorem arguments_of_constant {e : Expression} (constant : ¬ e.usesArgument = true) :
    e.arguments = 0 :=
  Nat.eq_zero_of_not_pos fun some => constant (e.usesArgument_iff.mpr some)

theorem shown_of_constant {e : Expression} (constant : e.usesArgument = false) :
    e.shown = Literal.write (e.value .zero) := by
  cases e with
  | argument => cases constant
  | number c => rw [shown, value]
  | prefixed op e =>
    rw [usesArgument] at constant
    rw [shown, constant, if_neg Bool.false_ne_true, value]
  | infixed op left right =>
    rw [usesArgument] at constant
    rw [shown, constant, if_neg Bool.false_ne_true, value]

/-- A pattern has one place for each time that the argument is in the expression. -/
theorem count_shown (e : Expression) : e.shown.count NamePattern.placeholder = e.arguments := by
  have written : ∀ z, (Literal.write z).count NamePattern.placeholder = 0 := fun z =>
    List.count_eq_zero_of_not_mem (Literal.placeholder_not_mem_write z)
  induction e with
  | argument => rfl
  | number value => exact written value
  | prefixed op e inductionHypothesis =>
    have lead := List.count_eq_zero_of_not_mem op.placeholder_not_mem
    rw [shown, arguments]
    split
    · rw [List.count_append, lead, inductionHypothesis, Nat.zero_add]
    · next constant => rw [written, arguments_of_constant constant]
  | infixed op left right leftCount rightCount =>
    have symbol := List.count_eq_zero_of_not_mem op.placeholder_not_mem
    have signs : ('(' == NamePattern.placeholder) = false ∧
        (')' == NamePattern.placeholder) = false := by decide
    rw [shown]
    split
    · simp [arguments, List.count_cons, signs, symbol, leftCount, rightCount]
    · next constant =>
      have none : (infixed op left right).arguments = 0 := arguments_of_constant constant
      rw [written, none]

/-- The outline that the function of an expression shows is the expression as a pattern. -/
theorem operand_shown (e : Expression) {f : NamedMap} (mapped : e.operand = .mapped f) :
    ∃ t : Outline, t.named = f ∧ t.render [NamePattern.placeholder] = e.shown := by
  induction e generalizing f with
  | argument =>
    cases mapped
    exact ⟨.argument, rfl, rfl⟩
  | number value => cases mapped
  | prefixed op e shows =>
    have denotes := e.operand_denotes
    rw [operand] at mapped
    cases found : e.operand with
    | constant c =>
      rw [found] at mapped
      cases mapped
    | mapped g =>
      rw [found] at mapped denotes
      cases mapped
      obtain ⟨t, rfl, same⟩ := shows found
      exact ⟨.prefixed op t, rfl, by rw [shown, if_pos denotes.1, ← same]; rfl⟩
  | infixed op left right leftShows rightShows =>
    have leftDenotes := left.operand_denotes
    have rightDenotes := right.operand_denotes
    rw [operand] at mapped
    rw [shown]
    cases foundLeft : left.operand with
    | constant a =>
      rw [foundLeft] at mapped leftDenotes
      cases foundRight : right.operand with
      | constant b =>
        rw [foundRight] at mapped
        cases mapped
      | mapped g =>
        rw [foundRight] at mapped rightDenotes
        cases mapped
        obtain ⟨u, rfl, same⟩ := rightShows foundRight
        refine ⟨.constantLeft op a u, rfl, ?_⟩
        rw [shown_of_constant leftDenotes.1, ← leftDenotes.2, ← same, rightDenotes.1, Bool.or_true]
        rfl
    | mapped g =>
      rw [foundLeft] at mapped leftDenotes
      obtain ⟨t, rfl, sameLeft⟩ := leftShows foundLeft
      cases foundRight : right.operand with
      | constant b =>
        rw [foundRight] at mapped rightDenotes
        cases mapped
        refine ⟨.constantRight op t b, rfl, ?_⟩
        rw [shown_of_constant rightDenotes.1, ← rightDenotes.2, ← sameLeft, leftDenotes.1,
          Bool.true_or]
        rfl
      | mapped h =>
        rw [foundRight] at mapped
        cases mapped
        obtain ⟨u, rfl, sameRight⟩ := rightShows foundRight
        refine ⟨.infixed op t u, rfl, ?_⟩
        rw [← sameLeft, ← sameRight, leftDenotes.1, Bool.true_or]
        rfl

/-- The name pattern of the function of an expression is the expression as a pattern. -/
theorem pattern_eq_shown {e : Expression} {f : NamedMap} (mapped : e.operand = .mapped f) :
    f.pattern.chars = e.shown := by
  obtain ⟨t, rfl, same⟩ := e.operand_shown mapped
  rw [← NamePattern.applyTo_placeholder, t.applyTo_named, same]

end Expression

namespace Grammar.Derivation

/-- The argument is as often in a meaning as among the tokens. -/
def Counts : (s : Symbol) → Meaning s → List Token → Prop
  | .rest _, grow, tokens => ∀ left : Expression,
    Expression.arguments (grow left) = left.arguments + tokens.countP Token.isArgument
  | .layer _, e, tokens | .operand _, e, tokens | .part, e, tokens =>
    Expression.arguments e = tokens.countP Token.isArgument

theorem counts {s : Symbol} (d : Derivation s) : Counts s d.meaning d.tokens := by
  induction d with
  | operands first others firstCounts othersCounts =>
    refine (othersCounts first.meaning).trans ?_
    rw [show first.meaning.arguments = _ from firstCounts, tokens, List.countP_append]
  | product inner innerCounts => exact innerCounts
  | power inner innerCounts => exact innerCounts
  | single inner innerCounts => exact innerCounts
  | stop => exact fun left => rfl
  | @more l sign op isOperator right others rightCounts othersCounts =>
    intro left
    have noArgument : sign.isArgument = false := by
      cases sign <;> first | rfl | (cases l <;> cases isOperator)
    refine (othersCounts (.infixed op left right.meaning)).trans ?_
    change left.arguments + Expression.arguments right.meaning + _ = _
    rw [show Expression.arguments right.meaning = _ from rightCounts, tokens, List.countP_cons,
      noArgument, List.countP_append]
    simp [Nat.add_assoc]
  | prefixed sign op isOperator inner innerCounts =>
    have noArgument : sign.isArgument = false := by
      cases sign <;> first | rfl | cases isOperator
    refine Eq.trans innerCounts ?_
    rw [tokens, List.countP_cons, noArgument]
    rfl
  | argument => rfl
  | number value => rfl
  | parenthesized inner innerCounts =>
    refine Eq.trans innerCounts ?_
    simp [tokens, List.countP_append, Token.isArgument]

/-- A list of tokens has one derivation at most. -/
theorem eq_of_tokens {s : Symbol} (d e : Derivation s) (same : d.tokens = e.tokens) : d = e := by
  have stops : Stops s [] := nofun
  exact (d.unique e stops stops (congrArg (· ++ []) same)).1

end Grammar.Derivation

namespace Grammar

/-- A list of tokens that the parser accepts as a function has an end of the input. The name
pattern of the function is written off the one derivation of the tokens in front of the first such
end, and has a place for the argument for each time that it is among them; there is at least one.
Of tokens behind the end nothing shows. -/
theorem pattern_shows_derivation {tokens : List Lexeme} {f : NamedMap}
    (accepted : (Parser.parse tokens).map Expression.operand = .ok (.mapped f)) :
    ∃ (before : List Lexeme) (last : Lexeme) (behind : List Lexeme)
        (d : Derivation (.layer .sum)),
      tokens = before ++ last :: behind ∧ last.token = .endOfInput ∧
      (∀ lexeme ∈ before, lexeme.token ≠ .endOfInput) ∧
      d.tokens = before.map Lexeme.token ∧
      (∀ d' : Derivation (.layer .sum), d'.tokens = before.map Lexeme.token → d' = d) ∧
      f.pattern.chars = Expression.shown d.meaning ∧
      f.pattern.chars.count NamePattern.placeholder =
        (before.map Lexeme.token).countP Token.isArgument ∧
      NamePattern.placeholder ∈ f.pattern.chars := by
  obtain ⟨e, parsed, mapped⟩ := Outcome.map_eq_ok_iff.mp accepted
  obtain ⟨before, last, behind, rfl, isEnd, others, inFront⟩ :=
    Parser.exists_of_parse_eq_ok parsed
  obtain ⟨d, same, rfl⟩ := (Parser.parse_eq_ok_iff isEnd others).mp inFront
  have pattern := Expression.pattern_eq_shown mapped
  have places : f.pattern.chars.count NamePattern.placeholder = Expression.arguments d.meaning :=
    (congrArg (List.count _) pattern).trans (Expression.count_shown d.meaning)
  have denotes := Expression.operand_denotes d.meaning
  rw [mapped] at denotes
  refine ⟨before, last, behind, d, rfl, isEnd, others, same, fun d' same' => ?_, pattern, ?_, ?_⟩
  · exact d'.eq_of_tokens d (same'.trans same.symm)
  · rw [places, ← same]
    exact d.counts
  · rw [← List.count_pos_iff, places]
    exact (Expression.usesArgument_iff _).mp denotes.1

/-- The product in front is worked out, and the argument behind the end does not show. -/
theorem pattern_shows_derivation_product :
    ∃ f, (Parser.parse [⟨.number ⟨1.0, 0.0⟩, 0, 1⟩, ⟨.star, 1, 2⟩, ⟨.number ⟨0.0, 1.0⟩, 2, 3⟩,
        ⟨.minus, 3, 4⟩, ⟨.prefixWord .sin, 4, 7⟩, ⟨.argument, 8, 9⟩, ⟨.endOfInput, 9, 9⟩,
        ⟨.argument, 9, 10⟩]).map Expression.operand = .ok (.mapped f) ∧
      f.pattern.chars = ['(', 'i', '-', 's', 'i', 'n', ' ', '#', ')'] ∧
      ∃ d : Derivation (.layer .sum), f.pattern.chars = Expression.shown d.meaning := by
  let e : Expression := .infixed .sub (.infixed .mul (.number ⟨1.0, 0.0⟩) (.number ⟨0.0, 1.0⟩))
    (.prefixed .sin .argument)
  let t : Outline := .constantLeft .sub (.mul ⟨1.0, 0.0⟩ ⟨0.0, 1.0⟩) (.prefixed .sin .argument)
  have parsed : Parser.parse [⟨.number ⟨1.0, 0.0⟩, 0, 1⟩, ⟨.star, 1, 2⟩,
      ⟨.number ⟨0.0, 1.0⟩, 2, 3⟩, ⟨.minus, 3, 4⟩, ⟨.prefixWord .sin, 4, 7⟩, ⟨.argument, 8, 9⟩,
      ⟨.endOfInput, 9, 9⟩, ⟨.argument, 9, 10⟩] = .ok e := rfl
  have accepted := Outcome.map_eq_ok_iff.mpr ⟨e, parsed, show e.operand = .mapped t.named from rfl⟩
  obtain ⟨_, _, _, d, -, -, -, -, -, pattern, -, -⟩ := pattern_shows_derivation accepted
  have unit : Literal.write (.mul ⟨1.0, 0.0⟩ ⟨0.0, 1.0⟩) = ['i'] := by decide +kernel
  have text : t.named.pattern.chars = ['(', 'i', '-', 's', 'i', 'n', ' ', '#', ')'] := by
    rw [← NamePattern.applyTo_placeholder, t.applyTo_named, Outline.render, unit]
    rfl
  exact ⟨t.named, accepted, text, d, pattern⟩

/-- Behind the end of the input the argument is a token of the list, and has no place in the
pattern. -/
theorem not_shown_behind_end :
    let tokens : List Lexeme := [⟨.argument, 0, 1⟩, ⟨.endOfInput, 1, 1⟩, ⟨.plus, 1, 2⟩,
      ⟨.argument, 2, 3⟩]
    (Parser.parse tokens).map Expression.operand = .ok (.mapped .identity) ∧
      NamedMap.identity.pattern.chars.count NamePattern.placeholder ≠
        (tokens.map Lexeme.token).countP Token.isArgument :=
  ⟨rfl, by decide⟩

end Grammar
end DomainColoring
