import DomainColoring.Expression.Basic
import DomainColoring.Expression.Lexer

/-!
# Parsing expressions

Three layers of infix operators, loosest first, each grouping to the left, over parts with
prefix operators. The reader looks at a list of tokens through its front. It never steps
over the last token: on a list that has no token for the end of the input, the last token
is read again and again. On such a list reading may have no end, so it is given a number
of steps, and an answer that comes within some number of steps is the answer.
-/

namespace DomainColoring

/-- What reading tokens comes to, and the tokens that are left where it stopped. -/
inductive Reading (α : Type) where
  | unfinished
  | failed (error : SyntaxError) (rest : List Lexeme)
  | done (value : α) (rest : List Lexeme)

namespace Reading

/-- Goes on after a success. -/
def andThen {α β : Type} (reading : Reading α) (next : α → List Lexeme → Reading β) :
    Reading β :=
  match reading with
  | unfinished => unfinished
  | failed error rest => failed error rest
  | done value rest => next value rest

end Reading

/-- The layers of infix operators. -/
inductive Layer where
  | sum
  | product
  | power
deriving DecidableEq, Repr

/-- The operator of a layer that a token is. -/
def Layer.operator? : Layer → Token → Option InfixOperator
  | sum, .plus => some .add
  | sum, .minus => some .sub
  | product, .star => some .mul
  | product, .slash => some .div
  | power, .caret => some .pow
  | _, _ => none

namespace Parser

/-- The token in front; past the end there is the end of the input. -/
def peek : List Lexeme → Token
  | [] => .endOfInput
  | lexeme :: _ => lexeme.token

/-- Where the token in front stands. -/
def place : List Lexeme → Span
  | [] => ⟨0, 0⟩
  | lexeme :: _ => lexeme.span

/-- The tokens behind the one in front, which stays if it is the last. -/
def advance : List Lexeme → List Lexeme
  | [] => []
  | [last] => [last]
  | _ :: next :: rest => next :: rest

/-- Whether a token closes a parenthesis. -/
def closes : Token → Bool
  | .rightParen => true
  | _ => false

/-- Goes on behind an operator if an operand can begin there. -/
def afterOperator {α : Type} (symbol : List Char) (tokens : List Lexeme)
    (next : List Lexeme → Reading α) : Reading α :=
  let rest := advance tokens
  if (peek rest).startsOperand then next rest
  else .failed ⟨.operandMissingAfter symbol (peek rest), (place tokens).merge (place rest)⟩ rest

mutual

/-- The operands of one layer and the operators between them. -/
def readLayer : Nat → Layer → List Lexeme → Reading Expression
  | 0, _, _ => .unfinished
  | steps + 1, layer, tokens =>
    (readTighter steps layer tokens).andThen fun left rest => readChain steps layer left rest

/-- The next operand of a layer: an expression of the layer that binds tighter. -/
def readTighter : Nat → Layer → List Lexeme → Reading Expression
  | 0, _, _ => .unfinished
  | steps + 1, .sum, tokens => readLayer steps .product tokens
  | steps + 1, .product, tokens => readLayer steps .power tokens
  | steps + 1, .power, tokens => readPart steps tokens

/-- What follows the left operand in its layer. -/
def readChain : Nat → Layer → Expression → List Lexeme → Reading Expression
  | 0, _, _, _ => .unfinished
  | steps + 1, layer, left, tokens =>
    match layer.operator? (peek tokens) with
    | none => .done left tokens
    | some op =>
      afterOperator op.symbol tokens fun rest =>
        (readTighter steps layer rest).andThen fun right rest =>
          readChain steps layer (.infixed op left right) rest

/-- A prefix operator and the one atom that it applies to, or an atom alone. -/
def readPart : Nat → List Lexeme → Reading Expression
  | 0, _ => .unfinished
  | steps + 1, tokens =>
    match (peek tokens).prefixOperator? with
    | none => readAtom steps tokens
    | some op =>
      afterOperator op.symbol tokens fun rest =>
        (readAtom steps rest).andThen fun operand rest => .done (.prefixed op operand) rest

/-- The argument, a number, an expression in parentheses, or a part with its own prefix. -/
def readAtom : Nat → List Lexeme → Reading Expression
  | 0, _ => .unfinished
  | steps + 1, tokens =>
    match peek tokens with
    | .argument => .done .argument (advance tokens)
    | .number value => .done (.number value) (advance tokens)
    | .leftParen =>
      let inside := advance tokens
      if closes (peek inside) then
        .failed ⟨.emptyParentheses, (place tokens).merge (place inside)⟩ inside
      else
        (readLayer steps .sum inside).andThen fun inner rest =>
          if closes (peek rest) then .done inner (advance rest)
          else
            .failed ⟨.unclosedParenthesis (peek rest), (place tokens).merge (place rest)⟩ rest
    | .prefixWord _ => readPart steps tokens
    | .minus => readPart steps tokens
    | other => .failed ⟨.operandMissing other, place tokens⟩ tokens

end

/-- Whether a token is the end of the input. -/
def isEnd : Token → Bool
  | .endOfInput => true
  | _ => false

/-- An expression that takes up the whole list, read in a number of steps. -/
def parseWithin (steps : Nat) (tokens : List Lexeme) : Reading Expression :=
  (readLayer steps .sum tokens).andThen fun e rest =>
    if isEnd (peek rest) then .done e rest
    else .failed ⟨.leftOver (peek rest), place rest⟩ rest

/-- Steps enough for every list on which reading ends. -/
def enoughSteps (tokens : List Lexeme) : Nat :=
  8 * tokens.length + 16

/-- The expression that a list of tokens is. -/
def parse (tokens : List Lexeme) : Except SyntaxError Expression :=
  match parseWithin (enoughSteps tokens) tokens with
  | .unfinished => .error ⟨.endless, place tokens⟩
  | .failed error _ => .error error
  | .done e _ => .ok e

end Parser

namespace Expression

/-- The expression that a text is. -/
def read (text : List Char) : Except SyntaxError Expression := do
  Parser.parse (← Lexer.tokens text)

end Expression

/-- What the expression in a text denotes. -/
def Operand.read (text : List Char) : Except SyntaxError Operand :=
  (Expression.read text).map Expression.operand

/-- The function that the expression in a text denotes; a constant is not a function. -/
def NamedMap.read (text : List Char) : Except SyntaxError NamedMap := do
  match ← Operand.read text with
  | .mapped f => return f
  | .constant c => throw ⟨.constant c, ⟨0, Text.byteLength text⟩⟩

end DomainColoring
