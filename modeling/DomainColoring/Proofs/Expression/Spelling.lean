import DomainColoring.Proofs.Expression.Lexer
import DomainColoring.Proofs.Expression.Outline
import DomainColoring.Proofs.Expression.Parser

/-!
# Names as texts of the grammar

The name of an outline is split into the tokens of one derivation. A constant with a minus sign
in front is two tokens there, so the derivation has a prefix operator that the outline has not;
otherwise the two have the same shape.
-/

namespace DomainColoring

namespace Lexer

theorem boundary_cons {c : Char} (separator : isSeparator c = true) (text : List Char) :
    Boundary (c :: text) := by
  intro d first
  cases first
  exact separator

theorem spells_argument : Spells [NamePattern.variableName] [.argument] := by
  apply spells_word
  · decide
  · exact List.all_eq_true.mp rfl
  · simp [NamePattern.variableName]
  · rfl

/-- Behind a minus sign a text has one token more in front. -/
theorem Spells.minus {text : List Char} {tokens : List Token} (spells : Spells text tokens) :
    Spells ('-' :: text) (.minus :: tokens) := by
  constructor
  intro after more boundary behind
  exact lexes_sign rfl (spells.lexes boundary behind)

end Lexer

/-- No prefix operator begins like a literal. -/
theorem PrefixOperator.exists_head_symbol (op : PrefixOperator) :
    ∃ first, op.symbol.head? = some first ∧
      ¬ (first = 'i' ∨ first = '.' ∨ first.isDigit = true) := by
  cases op <;> exact ⟨_, rfl, by decide⟩

namespace Literal

/-- A literal without sign is one token. -/
theorem IsBody.spells {text : List Char} {value : ComplexNumber} (body : IsBody text value) :
    Lexer.Spells text [.number value] := by
  cases body with
  | pair finite => exact Lexer.spells_pair (not_mem_pairText _) (read?_pair finite)
  | word written chars reads =>
    have inner : ∀ c ∈ text, Lexer.isInner c = true := by
      intro c member
      rcases chars c member with rfl | rfl | digit
      · rfl
      · rfl
      · simp [Lexer.isInner, digit]
    have noMark : ∀ c ∈ text, c ≠ 'e' ∧ c ≠ 'E' := by
      intro c member
      have code := chars c member
      constructor <;> rintro rfl <;> revert code <;> decide
    have noArgument : text ≠ [NamePattern.variableName] := by
      rintro rfl
      have code := chars _ List.mem_cons_self
      revert code
      decide
    have noWord : PrefixOperator.ofWord? text = none := by
      rw [PrefixOperator.ofWord?, List.find?_eq_none]
      intro op _ same
      obtain ⟨first, isFirst, noLetter⟩ := op.exists_head_symbol
      rw [of_decide_eq_true same] at isFirst
      exact noLetter (chars first (List.mem_of_mem_head? isFirst))
    have isNumber : Lexer.word? text = some (.number value) := by
      simp [Lexer.word?, noArgument, noWord, reads]
    exact Lexer.spells_word written inner
      (fun c last => noMark c (List.mem_of_mem_getLast? last)) isNumber

end Literal

namespace InfixOperator

/-- The sign of an infix operator. -/
def token : InfixOperator → Token
  | add => .plus
  | sub => .minus
  | mul => .star
  | div => .slash
  | pow => .caret

/-- The layer of an infix operator. -/
def layer : InfixOperator → Layer
  | add | sub => .sum
  | mul | div => .product
  | pow => .power

theorem operator?_token (op : InfixOperator) : op.layer.operator? op.token = some op := by
  cases op <;> rfl

/-- Between two operands an infix operator ends the left one and is a token. -/
theorem spells (op : InfixOperator) {left right : List Char} {leftTokens rightTokens : List Token}
    (leftSpells : Lexer.Spells left leftTokens) (rightSpells : Lexer.Spells right rightTokens) :
    Lexer.Spells ('(' :: (left ++ op.symbol ++ right ++ [')']))
      (.leftParen :: (leftTokens ++ op.token :: (rightTokens ++ [.rightParen]))) := by
  constructor
  intro after more _ behind
  obtain ⟨sign, symbol, separator, isSign⟩ : ∃ sign, op.symbol = [sign] ∧
      Lexer.isSeparator sign = true ∧ Lexer.sign? sign = some op.token := by
    cases op <;> exact ⟨_, rfl, rfl, rfl⟩
  have close : Lexer.Lexes (')' :: after) (.rightParen :: more) := Lexer.lexes_sign rfl behind
  have fromRight := rightSpells.lexes (Lexer.boundary_cons rfl after) close
  have fromSign := Lexer.lexes_sign isSign fromRight
  have fromLeft := leftSpells.lexes (Lexer.boundary_cons separator _) fromSign
  have open_ : Lexer.sign? '(' = some .leftParen := rfl
  have whole := Lexer.lexes_sign open_ fromLeft
  simpa [symbol] using whole

end InfixOperator

namespace PrefixOperator

/-- The word or the sign of a prefix operator. -/
def token : PrefixOperator → Token
  | neg => .minus
  | op => .prefixWord op

theorem prefixOperator?_token (op : PrefixOperator) : op.token.prefixOperator? = some op := by
  cases op <;> rfl

/-- In front of an operand a prefix operator is one token. -/
theorem spells (op : PrefixOperator) {text : List Char} {tokens : List Token}
    (operand : Lexer.Spells text tokens) : Lexer.Spells (op.lead ++ text) (op.token :: tokens) := by
  by_cases minus : op = neg
  · subst minus
    exact operand.minus
  · constructor
    intro after more boundary behind
    have isWord : Lexer.Spells op.symbol [op.token] := by
      cases op with
      | neg => exact absurd rfl minus
      | exp | ln | sin | cos | tan =>
        apply Lexer.spells_word
        · decide
        · exact List.all_eq_true.mp rfl
        · simp [symbol]
        · rfl
    have spaced : Lexer.Lexes (' ' :: (text ++ after)) (tokens ++ more) :=
      Lexer.lexes_blank (by decide) (operand.lexes boundary behind)
    have whole := isWord.lexes (Lexer.boundary_cons rfl _) spaced
    have lead : op.lead = op.symbol ++ [' '] := by
      revert minus
      cases op <;> simp [lead]
    simpa [lead] using whole

end PrefixOperator

namespace Grammar

/-- A part on its own is an operand of every layer. -/
def operandOf (d : Derivation .part) : (l : Layer) → Derivation (.operand l)
  | .power => .single d
  | .product => .power (.operands (.single d) .stop)
  | .sum => .product (.operands (.power (.operands (.single d) .stop)) .stop)

/-- An expression of any layer is a whole expression. -/
def wholeOf : {l : Layer} → Derivation (.layer l) → Derivation (.layer .sum)
  | .sum, d => d
  | .product, d => .operands (.product d) .stop
  | .power, d => .operands (.product (.operands (.power d) .stop)) .stop

/-- Two parts with an infix operator between them, in parentheses. -/
def infixed (op : InfixOperator) (left right : Derivation .part) : Derivation .part :=
  .parenthesized (wholeOf (.operands (operandOf left op.layer)
    (.more op.token op op.operator?_token (operandOf right op.layer) .stop)))

/-- A constant that shows in a name; its minus sign is an operator. -/
def constant (c : ComplexNumber) : Derivation .part :=
  if (Literal.reading c).1 then .prefixed .minus .neg rfl (.number (Literal.reading c).2)
  else .number (Literal.reading c).2

/-- The name of an outline as a part of an expression. -/
def part : Outline → Derivation .part
  | .argument => .argument
  | .prefixed op inner => .prefixed op.token op op.prefixOperator?_token (part inner)
  | .infixed op left right => infixed op (part left) (part right)
  | .constantRight op left c => infixed op (part left) (constant c)
  | .constantLeft op c right => infixed op (constant c) (part right)

theorem tokens_infixed (op : InfixOperator) (left right : Derivation .part) :
    (infixed op left right).tokens =
      .leftParen :: (left.tokens ++ op.token :: (right.tokens ++ [.rightParen])) := by
  cases op <;> simp [infixed, wholeOf, operandOf, InfixOperator.layer, Derivation.tokens]

theorem operand_infixed (op : InfixOperator) (left right : Derivation .part) :
    Expression.operand (infixed op left right).meaning =
      (Expression.operand left.meaning).applyInfix op (Expression.operand right.meaning) := by
  cases op <;> rfl

theorem spells_constant {c : ComplexNumber} (finite : c.isFinite = true) :
    Lexer.Spells (Literal.write c) (constant c).tokens := by
  obtain ⟨body, text, isBody⟩ := Literal.write_eq finite
  rw [text, constant]
  split
  · exact isBody.spells.minus
  · exact isBody.spells

/-- The name of an outline with finite constants has the tokens of its derivation. -/
theorem spells_part {t : Outline} (finite : ∀ c ∈ t.constants, c.isFinite = true) :
    Lexer.Spells (t.render [NamePattern.variableName]) (part t).tokens := by
  induction t with
  | argument => exact Lexer.spells_argument
  | prefixed op inner innerSpells => exact op.spells (innerSpells finite)
  | infixed op left right leftSpells rightSpells =>
    rw [part, tokens_infixed]
    exact op.spells (leftSpells fun c member => finite c (List.mem_append_left _ member))
      (rightSpells fun c member => finite c (List.mem_append_right _ member))
  | constantRight op left c leftSpells =>
    rw [part, tokens_infixed]
    exact op.spells (leftSpells fun c member => finite c (List.mem_append_left _ member))
      (spells_constant (finite c (List.mem_append_right _ List.mem_cons_self)))
  | constantLeft op c right rightSpells =>
    rw [part, tokens_infixed]
    exact op.spells (spells_constant (finite c List.mem_cons_self))
      (rightSpells fun c member => finite c (List.mem_cons_of_mem _ member))

theorem operand_constant (c : ComplexNumber) :
    Expression.operand (constant c).meaning = .constant (Literal.reread c) := by
  rw [constant, Literal.reread]
  split <;> rfl

/-- What the name of an outline denotes: the outline with its constants read again. -/
theorem operand_part (t : Outline) :
    Expression.operand (part t).meaning = .mapped (t.mapConstants Literal.reread).named := by
  induction t with
  | argument => rfl
  | prefixed op inner innerDenotes =>
    change (Expression.operand (part inner).meaning).applyPrefix op = _
    rw [innerDenotes]
    rfl
  | infixed op left right leftDenotes rightDenotes =>
    rw [part, operand_infixed, leftDenotes, rightDenotes]
    rfl
  | constantRight op left c leftDenotes =>
    rw [part, operand_infixed, leftDenotes, operand_constant]
    rfl
  | constantLeft op c right rightDenotes =>
    rw [part, operand_infixed, rightDenotes, operand_constant]
    rfl

/-- The end of the input is no token of a derivation. -/
theorem Derivation.endOfInput_not_mem {s : Symbol} (d : Derivation s) :
    .endOfInput ∉ d.tokens := by
  induction d with
  | operands first others firstNone othersNone => simp [tokens, firstNone, othersNone]
  | product inner innerNone => exact innerNone
  | power inner innerNone => exact innerNone
  | single inner innerNone => exact innerNone
  | stop => exact List.not_mem_nil
  | @more l sign op isOperator right others rightNone othersNone =>
    have noEnd : Token.endOfInput ≠ sign := by
      rintro rfl
      cases l <;> cases isOperator
    simp [tokens, noEnd, rightNone, othersNone]
  | prefixed sign op isOperator inner innerNone =>
    have noEnd : Token.endOfInput ≠ sign := by
      rintro rfl
      cases isOperator
    simp [tokens, noEnd, innerNone]
  | argument => simp [tokens]
  | number value => simp [tokens]
  | parenthesized inner innerNone => simp [tokens, innerNone]

end Grammar
end DomainColoring
