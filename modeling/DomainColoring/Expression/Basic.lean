import DomainColoring.ComplexNumber.Literal
import DomainColoring.Expression.Operator
import DomainColoring.NamedMap

/-!
# Expressions and what they denote

An expression is a tree over the argument. Its operand is either a constant, worked out on
the spot, or a named function; only parts that use the argument show in the name one by one.
-/

namespace DomainColoring

/-- Expressions over the argument. -/
inductive Expression where
  | argument
  | number (value : ComplexNumber)
  | prefixed (op : PrefixOperator) (operand : Expression)
  | infixed (op : InfixOperator) (left right : Expression)

/-- What an expression denotes. -/
inductive Operand where
  | constant (value : ComplexNumber)
  | mapped (f : NamedMap)

namespace Operand

/-- A prefix operator on an operand. -/
def applyPrefix (op : PrefixOperator) : Operand → Operand
  | constant c => constant (op.apply c)
  | mapped f => mapped (f.rightCompose ⟨op.pattern, op.apply⟩)

/-- An infix operator on two operands. A constant beside a function is part of the name. -/
def applyInfix (op : InfixOperator) : Operand → Operand → Operand
  | constant a, constant b => constant (op.apply a b)
  | mapped f, mapped g => mapped (f.combine op.symbol op.apply g)
  | mapped f, constant c =>
    mapped (f.rightCompose
      ⟨.wrap ['('] (op.symbol ++ Literal.write c ++ [')']), fun w => op.apply w c⟩)
  | constant c, mapped f =>
    mapped (f.rightCompose
      ⟨.wrap ('(' :: Literal.write c ++ op.symbol) [')'], fun w => op.apply c w⟩)

end Operand

namespace Expression

/-- The operand that an expression denotes. -/
def operand : Expression → Operand
  | argument => .mapped .identity
  | number value => .constant value
  | prefixed op e => e.operand.applyPrefix op
  | infixed op left right => left.operand.applyInfix op right.operand

end Expression
end DomainColoring
