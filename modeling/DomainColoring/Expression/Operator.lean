import DomainColoring.ComplexNumber
import DomainColoring.NamePattern

/-!
# Operators

The infix and prefix operators of expressions: how each is written and what it computes.
-/

namespace DomainColoring

/-- The infix operators. -/
inductive InfixOperator where
  | add
  | sub
  | mul
  | div
  | pow
deriving DecidableEq, Repr

namespace InfixOperator

def symbol : InfixOperator → List Char
  | add => ['+']
  | sub => ['-']
  | mul => ['*']
  | div => ['/']
  | pow => ['^']

def apply : InfixOperator → ComplexNumber → ComplexNumber → ComplexNumber
  | add => .add
  | sub => .sub
  | mul => .mul
  | div => .div
  | pow => .pow

end InfixOperator

/-- The prefix operators: minus and the words. -/
inductive PrefixOperator where
  | neg
  | exp
  | ln
  | sin
  | cos
  | tan
deriving DecidableEq, Repr

namespace PrefixOperator

def symbol : PrefixOperator → List Char
  | neg => ['-']
  | exp => ['e', 'x', 'p']
  | ln => ['l', 'n']
  | sin => ['s', 'i', 'n']
  | cos => ['c', 'o', 's']
  | tan => ['t', 'a', 'n']

/-- The operator that a word stands for; minus is not a word. -/
def ofWord? (word : List Char) : Option PrefixOperator :=
  [exp, ln, sin, cos, tan].find? fun op => op.symbol = word

/-- The name of the operator on its argument; a word is set off by a space. -/
def pattern : PrefixOperator → NamePattern
  | neg => .wrap neg.symbol []
  | op => .wrap (op.symbol ++ [' ']) []

def apply : PrefixOperator → ComplexNumber → ComplexNumber
  | neg => .neg
  | exp => .exp
  | ln => .ln
  | sin => .sin
  | cos => .cos
  | tan => .tan

end PrefixOperator
end DomainColoring
