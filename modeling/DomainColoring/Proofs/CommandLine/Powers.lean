import DomainColoring.CommandLine.Series
import DomainColoring.Proofs.Expression.Name

/-!
# Powers as expressions

The powers of a series are put together without an expression. The expression of a power takes
another way to it: a minus sign in front of the exponent is an operator of its own, and the
exponent comes out with a zero of that sign for its imaginary part. A power does not tell the two
zeros apart. Nothing is said of names here: the name of a power of a series shows two places of
the exponent only.
-/

namespace DomainColoring

/-- A power depends on the real part of its exponent alone if the imaginary part is a zero, of
whichever sign. -/
theorem ComplexNumber.pow_of_real {re im : Float} (zero : (im == 0.0) = true)
    (base : ComplexNumber) : pow base ⟨re, im⟩ = pow base ⟨re, 0.0⟩ := by
  have positive : ((0.0 : Float) == 0.0) = true := by decide
  have same : (ComplexNumber.mk re im).isZero = (ComplexNumber.mk re 0.0).isZero :=
    congrArg (re == 0.0 && ·) (zero.trans positive.symm)
  rw [pow, pow, same]
  simp only [zero, positive, if_true]

namespace Literal

theorem zeroLike_beq_zero (x : Float) : (zeroLike x == 0.0) = true := by
  rw [zeroLike]
  split <;> decide

theorem write_real (x : Float) : write ⟨x, 0.0⟩ = Decimal.plain x :=
  if_pos zero_negligible

/-- A real number is read again with a zero of its own sign beside it. -/
theorem reread_real {x : Float} (finite : (ComplexNumber.mk x 0.0).isFinite = true) :
    reread ⟨x, 0.0⟩ = ⟨x, zeroLike x⟩ := by
  rw [reread_eq finite, if_pos zero_negligible]

end Literal

namespace Grammar

/-- The argument to the power of a constant. -/
def argumentPower (c : ComplexNumber) : Derivation (.layer .sum) :=
  wholeOf (.operands (operandOf .argument .power)
    (.more .caret .pow rfl (operandOf (constant c) .power) .stop))

theorem lexes_argumentPower {c : ComplexNumber} (finite : c.isFinite = true) :
    Lexer.Lexes (NamePattern.variableName :: '^' :: Literal.write c) (argumentPower c).tokens := by
  have exponent : Lexer.Lexes (Literal.write c ++ []) ((constant c).tokens ++ []) :=
    (spells_constant finite).lexes nofun Lexer.lexes_nil
  have sign : Lexer.sign? '^' = some .caret := rfl
  have whole := Lexer.spells_argument.lexes (Lexer.boundary_cons rfl _)
    (Lexer.lexes_sign sign exponent)
  simpa [argumentPower, wholeOf, operandOf, Derivation.tokens] using whole

/-- The argument to the power of a written constant denotes a function, whose exponent is the
constant as it is read again. -/
theorem operand_argumentPower (c : ComplexNumber) :
    ∃ f, Expression.operand (argumentPower c).meaning = .mapped f ∧
      ∀ z, f.map z = z.pow (Literal.reread c) := by
  have denotes : Expression.operand (argumentPower c).meaning =
      (Operand.mapped .identity).applyInfix .pow (Expression.operand (constant c).meaning) := rfl
  rw [denotes, operand_constant]
  exact ⟨_, rfl, fun _ => rfl⟩

end Grammar

namespace CommandLine

/-- A power of a series has the values of the function that its expression names: the argument to
the power of the exponent with all its digits. -/
theorem powerFunction_read {p : Float} (finite : p.isFinite = true) :
    ∃ f, NamedMap.read (['z', '^'] ++ Decimal.plain p) = .ok f ∧
      ∀ z, (powerFunction p).map z = f.map z := by
  let exponent : ComplexNumber := ⟨p, 0.0⟩
  have zeroFinite : (0.0 : Float).isFinite = true := by decide
  have exponentFinite : exponent.isFinite = true := by
    rw [ComplexNumber.isFinite, finite, zeroFinite]
    rfl
  obtain ⟨f, denotes, values⟩ := Grammar.operand_argumentPower exponent
  have lexes := Grammar.lexes_argumentPower exponentFinite
  rw [Literal.write_real] at lexes
  refine ⟨f, NamedMap.read_eq_ok_iff.mpr ⟨_, Expression.read_of_lexes _ lexes, denotes⟩, ?_⟩
  intro z
  calc (powerFunction p).map z = z.pow ⟨p, 0.0⟩ := rfl
    _ = z.pow ⟨p, Literal.zeroLike p⟩ :=
      (ComplexNumber.pow_of_real (Literal.zeroLike_beq_zero p) z).symm
    _ = f.map z := by rw [values, Literal.reread_real exponentFinite]

/-- A fraction with a minus sign, and the zero with one: both signs are operators in the
expression. -/
theorem powerFunction_read_minus :
    (-0.5 : Float).isFinite = true ∧ (-0.0 : Float).isFinite = true ∧
    (∃ f, NamedMap.read ['z', '^', '-', '0', '.', '5'] = .ok f ∧
      ∀ z, (powerFunction (-0.5)).map z = f.map z) ∧
    ∃ f, NamedMap.read ['z', '^', '-', '0'] = .ok f ∧
      ∀ z, (powerFunction (-0.0)).map z = f.map z := by
  have half : Decimal.plain (-0.5) = ['-', '0', '.', '5'] := by decide +kernel
  have zero : Decimal.plain (-0.0) = ['-', '0'] := by decide +kernel
  refine ⟨by decide, by decide, ?_, ?_⟩
  · have read := powerFunction_read (show (-0.5 : Float).isFinite = true by decide)
    rwa [half] at read
  · have read := powerFunction_read (show (-0.0 : Float).isFinite = true by decide)
    rwa [zero] at read

end CommandLine
end DomainColoring
