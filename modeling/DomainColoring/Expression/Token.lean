import DomainColoring.ComplexNumber.Literal
import DomainColoring.Expression.Operator
import DomainColoring.Text.Span

/-!
# Tokens of expressions
-/

namespace DomainColoring

/-- The words and signs of expressions. A minus sign is always `minus`; whether it is an infix
or a prefix operator is not seen before parsing. -/
inductive Token where
  | argument
  | number (value : ComplexNumber)
  | prefixWord (op : PrefixOperator)
  | plus
  | minus
  | star
  | slash
  | caret
  | leftParen
  | rightParen
  | endOfInput

namespace Token

/-- What a token is called in a message. -/
def describe : Token → String
  | argument => "argument 'z'"
  | number value => "number " ++ String.ofList (Literal.write value)
  | prefixWord op => "'" ++ String.ofList op.symbol ++ "'"
  | plus => "'+'"
  | minus => "'-'"
  | star => "'*'"
  | slash => "'/'"
  | caret => "'^'"
  | leftParen => "'('"
  | rightParen => "')'"
  | endOfInput => "end of input"

/-- Whether a token can begin an operand. -/
def startsOperand : Token → Bool
  | argument | number _ | leftParen | prefixWord _ | minus => true
  | _ => false

/-- The prefix operator that a token is in front of an operand. -/
def prefixOperator? : Token → Option PrefixOperator
  | prefixWord op => some op
  | minus => some .neg
  | _ => none

end Token

/-- A token and where it stands. -/
structure Lexeme where
  token : Token
  span : Span

end DomainColoring
