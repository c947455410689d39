import DomainColoring.Proofs.Expression.Parser

/-!
# Evaluation of derivations

A derivation is evaluated at a point from its leaves up, without folding constants. The operand
that the parser comes to, a folded constant or a function, has this value everywhere.
-/

namespace DomainColoring

namespace Expression

/-- The value at a point. -/
def value (z : ComplexNumber) : Expression → ComplexNumber
  | argument => z
  | number value => value
  | prefixed op e => op.apply (e.value z)
  | infixed op left right => op.apply (left.value z) (right.value z)

/-- Whether the argument is anywhere in the expression. -/
def usesArgument : Expression → Bool
  | argument => true
  | number _ => false
  | prefixed _ e => e.usesArgument
  | infixed _ left right => left.usesArgument || right.usesArgument

end Expression

namespace Operand

/-- An operand is a constant exactly if an expression does not use the argument, and has its
value at every point. -/
def Denotes (e : Expression) : Operand → Prop
  | constant c => e.usesArgument = false ∧ ∀ z, c = e.value z
  | mapped f => e.usesArgument = true ∧ ∀ z, f.map z = e.value z

theorem Denotes.applyPrefix {e : Expression} {operand : Operand} (op : PrefixOperator)
    (denotes : operand.Denotes e) : (operand.applyPrefix op).Denotes (.prefixed op e) := by
  cases operand with
  | constant c =>
    obtain ⟨noArgument, same⟩ := denotes
    exact ⟨noArgument, fun z => congrArg op.apply (same z)⟩
  | mapped f =>
    obtain ⟨argument, same⟩ := denotes
    exact ⟨argument, fun z => congrArg op.apply (same z)⟩

/-- Whichever of two operands are constants, an infix operator is applied to their values from
left to right. -/
theorem Denotes.applyInfix {left right : Expression} {leftOperand rightOperand : Operand}
    (op : InfixOperator) (leftDenotes : leftOperand.Denotes left)
    (rightDenotes : rightOperand.Denotes right) :
    (leftOperand.applyInfix op rightOperand).Denotes (.infixed op left right) := by
  cases leftOperand with
  | constant a =>
    obtain ⟨noArgument, leftSame⟩ := leftDenotes
    cases rightOperand with
    | constant b =>
      obtain ⟨noArgument', rightSame⟩ := rightDenotes
      exact ⟨by simp [Expression.usesArgument, noArgument, noArgument'],
        fun z => congrArg₂ op.apply (leftSame z) (rightSame z)⟩
    | mapped g =>
      obtain ⟨argument, rightSame⟩ := rightDenotes
      exact ⟨by simp [Expression.usesArgument, argument],
        fun z => congrArg₂ op.apply (leftSame z) (rightSame z)⟩
  | mapped f =>
    obtain ⟨argument, leftSame⟩ := leftDenotes
    cases rightOperand with
    | constant b =>
      obtain ⟨noArgument, rightSame⟩ := rightDenotes
      exact ⟨by simp [Expression.usesArgument, argument],
        fun z => congrArg₂ op.apply (leftSame z) (rightSame z)⟩
    | mapped g =>
      obtain ⟨argument', rightSame⟩ := rightDenotes
      exact ⟨by simp [Expression.usesArgument, argument],
        fun z => congrArg₂ op.apply (leftSame z) (rightSame z)⟩

end Operand

/-- Folding constants and building functions changes no value. -/
theorem Expression.operand_denotes (e : Expression) : e.operand.Denotes e := by
  induction e with
  | argument => exact ⟨rfl, fun _ => rfl⟩
  | number value => exact ⟨rfl, fun _ => rfl⟩
  | prefixed op e inner => exact inner.applyPrefix op
  | infixed op left right leftDenotes rightDenotes => exact leftDenotes.applyInfix op rightDenotes

namespace Grammar

/-- The value of a derivation from a symbol: a number, or, behind the first operand of a layer,
what becomes of the number on the left. -/
def Value : Symbol → Type
  | .rest _ => ComplexNumber → ComplexNumber
  | _ => ComplexNumber

namespace Derivation

/-- The value of a derivation at a point, from the leaves up; layers group to the left. -/
def value (z : ComplexNumber) : {s : Symbol} → Derivation s → Value s
  | _, operands first others => others.value z (first.value z)
  | _, product inner => inner.value z
  | _, power inner => inner.value z
  | _, single inner => inner.value z
  | _, stop => fun left => left
  | _, more _ op _ right others => fun left => others.value z (op.apply left (right.value z))
  | _, prefixed _ op _ inner => op.apply (inner.value z)
  | _, argument => z
  | _, number value => value
  | _, parenthesized inner => inner.value z

/-- A meaning has a value at a point, and uses the argument exactly if it is one of the
tokens. -/
def Evaluates (z : ComplexNumber) : (s : Symbol) → Meaning s → Value s → List Token → Prop
  | .rest _, grow, value, tokens => ∀ left : Expression,
    Expression.value z (grow left) = value (left.value z) ∧
      ((grow left).usesArgument = true ↔ left.usesArgument = true ∨ .argument ∈ tokens)
  | .layer _, e, value, tokens | .operand _, e, value, tokens | .part, e, value, tokens =>
    Expression.value z e = value ∧ (Expression.usesArgument e = true ↔ .argument ∈ tokens)

theorem evaluates (z : ComplexNumber) {s : Symbol} (d : Derivation s) :
    Evaluates z s d.meaning (d.value z) d.tokens := by
  induction d with
  | operands first others firstEvaluates othersEvaluates =>
    obtain ⟨same, uses⟩ := othersEvaluates first.meaning
    obtain ⟨firstSame, firstUses⟩ := firstEvaluates
    refine ⟨same.trans (congrArg (others.value z) firstSame), uses.trans ?_⟩
    rw [firstUses, tokens, List.mem_append]
  | product inner innerEvaluates => exact innerEvaluates
  | power inner innerEvaluates => exact innerEvaluates
  | single inner innerEvaluates => exact innerEvaluates
  | stop => exact fun left => ⟨rfl, by simp [meaning, tokens]⟩
  | @more l sign op isOperator right others rightEvaluates othersEvaluates =>
    intro left
    obtain ⟨rightSame, rightUses⟩ := rightEvaluates
    obtain ⟨same, uses⟩ := othersEvaluates (.infixed op left right.meaning)
    have noArgument : .argument ≠ sign := by
      rintro rfl
      cases l <;> cases isOperator
    refine ⟨same.trans (congrArg (fun value => others.value z (op.apply (left.value z) value))
      rightSame), uses.trans ?_⟩
    change (left.usesArgument || Expression.usesArgument right.meaning) = true ∨ _ ↔ _
    rw [Bool.or_eq_true, rightUses, tokens, List.mem_cons, List.mem_append]
    simp [noArgument, or_assoc]
  | prefixed sign op isOperator inner innerEvaluates =>
    obtain ⟨same, uses⟩ := innerEvaluates
    have noArgument : .argument ≠ sign := by
      rintro rfl
      cases isOperator
    refine ⟨congrArg op.apply same, uses.trans ?_⟩
    simp [tokens, noArgument]
  | argument => exact ⟨rfl, by simp [meaning, tokens, Expression.usesArgument]⟩
  | number value => exact ⟨rfl, by simp [meaning, tokens, Expression.usesArgument]⟩
  | parenthesized inner innerEvaluates =>
    obtain ⟨same, uses⟩ := innerEvaluates
    refine ⟨same, uses.trans ?_⟩
    simp [tokens]

end Derivation

/-- Of tokens that end with the end of the input and have it nowhere else, the parser makes an
operand exactly if those in front of the end have a derivation. They have one at most. The
operand is a constant if the argument is not among them and a function otherwise, and its value
is that of the derivation, at every point. -/
theorem parse_operand {lexemes : List Lexeme} {last : Lexeme} (isEnd : last.token = .endOfInput)
    (others : ∀ lexeme ∈ lexemes, lexeme.token ≠ .endOfInput) :
    ((∃ operand, (Parser.parse (lexemes ++ [last])).map Expression.operand = .ok operand) ↔
      ∃ d : Derivation (.layer .sum), d.tokens = lexemes.map Lexeme.token) ∧
    (∀ d e : Derivation (.layer .sum), d.tokens = lexemes.map Lexeme.token →
      e.tokens = lexemes.map Lexeme.token → d = e) ∧
    ∀ (d : Derivation (.layer .sum)) (operand : Operand),
      d.tokens = lexemes.map Lexeme.token →
      (Parser.parse (lexemes ++ [last])).map Expression.operand = .ok operand →
      match operand with
      | .constant c => .argument ∉ lexemes.map Lexeme.token ∧ ∀ z, c = d.value z
      | .mapped f => .argument ∈ lexemes.map Lexeme.token ∧ ∀ z, f.map z = d.value z := by
  have mapped : ∀ operand,
      (Parser.parse (lexemes ++ [last])).map Expression.operand = .ok operand ↔
        ∃ e, Parser.parse (lexemes ++ [last]) = .ok e ∧ e.operand = operand := by
    intro operand
    cases Parser.parse (lexemes ++ [last]) <;> simp [Except.map]
  have unique : ∀ d e : Derivation (.layer .sum), d.tokens = lexemes.map Lexeme.token →
      e.tokens = lexemes.map Lexeme.token → d = e := by
    intro d e dTokens eTokens
    have stops : Stops (.layer .sum) [] := nofun
    have same : d.tokens ++ [] = e.tokens ++ [] := by rw [dTokens, eTokens]
    exact (d.unique e stops stops same).1
  refine ⟨?_, unique, ?_⟩
  · constructor
    · rintro ⟨operand, parsed⟩
      obtain ⟨e, found, -⟩ := (mapped operand).mp parsed
      obtain ⟨d, same, -⟩ := (Parser.parse_eq_ok_iff isEnd others).mp found
      exact ⟨d, same⟩
    · rintro ⟨d, same⟩
      exact ⟨_, (mapped _).mpr ⟨_, (Parser.parse_eq_ok_iff isEnd others).mpr ⟨d, same, rfl⟩, rfl⟩⟩
  · intro d operand same parsed
    obtain ⟨e, found, rfl⟩ := (mapped operand).mp parsed
    obtain ⟨d', same', rfl⟩ := (Parser.parse_eq_ok_iff isEnd others).mp found
    obtain rfl := unique d d' same same'
    have denotes := Expression.operand_denotes d.meaning
    have values : ∀ z, Expression.value z d.meaning = d.value z := fun z => (d.evaluates z).1
    have uses : Expression.usesArgument d.meaning = true ↔ _ := (d.evaluates .zero).2
    rw [same] at uses
    cases found : Expression.operand d.meaning with
    | constant c =>
      rw [found] at denotes
      obtain ⟨noArgument, constant⟩ := denotes
      refine ⟨fun member => ?_, fun z => (constant z).trans (values z)⟩
      rw [uses.mpr member] at noArgument
      cases noArgument
    | mapped f =>
      rw [found] at denotes
      obtain ⟨argument, constant⟩ := denotes
      exact ⟨uses.mp argument, fun z => (constant z).trans (values z)⟩

/-- The minus sign binds to the argument alone. -/
theorem parse_operand_minus :
    ∃ f, (Parser.parse ([⟨.minus, ⟨0, 1⟩⟩, ⟨.argument, ⟨1, 2⟩⟩, ⟨.plus, ⟨2, 3⟩⟩,
        ⟨.number ⟨1.0, 0.0⟩, ⟨3, 4⟩⟩] ++ [⟨.endOfInput, ⟨4, 4⟩⟩])).map Expression.operand =
          .ok (.mapped f) ∧
      ∀ z, f.map z = (z.neg).add ⟨1.0, 0.0⟩ := by
  let operand (inner : Derivation .part) : Derivation (.operand .sum) :=
    .product (.operands (.power (.operands (.single inner) .stop)) .stop)
  let d : Derivation (.layer .sum) :=
    .operands (operand (.prefixed .minus .neg rfl .argument))
      (.more .plus .add rfl (operand (.number ⟨1.0, 0.0⟩)) .stop)
  let lexemes : List Lexeme := [⟨.minus, ⟨0, 1⟩⟩, ⟨.argument, ⟨1, 2⟩⟩, ⟨.plus, ⟨2, 3⟩⟩,
    ⟨.number ⟨1.0, 0.0⟩, ⟨3, 4⟩⟩]
  let last : Lexeme := ⟨.endOfInput, ⟨4, 4⟩⟩
  have isEnd : last.token = .endOfInput := rfl
  have others : ∀ lexeme ∈ lexemes, lexeme.token ≠ .endOfInput := by simp [lexemes]
  obtain ⟨derivable, -, valued⟩ := parse_operand isEnd others
  obtain ⟨found, parsed⟩ := derivable.mpr ⟨d, rfl⟩
  have values := valued d found rfl parsed
  cases found with
  | constant c => exact absurd (values.1 (by simp [lexemes])) id
  | mapped f => exact ⟨f, parsed, values.2⟩

end Grammar
end DomainColoring
