import DomainColoring.Expression.Token

/-!
# Errors in expressions
-/

namespace DomainColoring

/-- Why a text is no expression. -/
inductive SyntaxError.Cause where
  | unmatchedBrace
  | unterminatedPair
  | badLiteral (text : List Char)
  | unknownWord (word : List Char)
  | operandMissingAfter (symbol : List Char) (found : Token)
  | operandMissing (found : Token)
  | emptyParentheses
  | unclosedParenthesis (found : Token)
  | leftOver (found : Token)
  | constant (value : ComplexNumber)
  /-- No token ends the input, and reading the last token over and over would not end. -/
  | endless

/-- The cause of an error and the part of the text that shows it. -/
structure SyntaxError where
  cause : SyntaxError.Cause
  span : Span

namespace SyntaxError

def Cause.message : Cause → String
  | unmatchedBrace => "Unmatched '\x7d'"
  | unterminatedPair => "Unterminated '\x7b' in complex literal"
  | badLiteral text => Literal.refusal text
  | unknownWord word => "Unrecognized token '" ++ String.ofList word ++ "'"
  | operandMissingAfter symbol found =>
    "Expected operand after '" ++ String.ofList symbol ++ "', got " ++ found.describe
  | operandMissing found => "Expected operand, got " ++ found.describe
  | emptyParentheses => "Expected expression in parentheses"
  | unclosedParenthesis found => "Expected closing parenthesis, got " ++ found.describe
  | leftOver found => "Unexpected " ++ found.describe ++ " after complete expression"
  | constant value =>
    "expression does not use the argument 'z' (it is the constant "
      ++ String.ofList (Literal.write value) ++ ")"
  | endless => "Expected end of input"

/-- What is in front of the message of every error in an expression. -/
def report (message : String) : String :=
  "invalid expression: " ++ message

def message (e : SyntaxError) : String :=
  e.cause.message

end SyntaxError
end DomainColoring
