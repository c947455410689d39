import DomainColoring.Expression.Basic
import DomainColoring.Proofs.ComplexNumber.Literal
import DomainColoring.Proofs.NamePattern

/-!
# Outlines of names

The constants of an expression are worked out before they are shown, so the name of a function
shows less than its expression. An outline is what the name still shows: operators down to the
argument, with at most one constant beside each infix operator. An outline says nothing of where
its constants came from.
-/

namespace DomainColoring

/-- What the name of a function shows of its expression. -/
inductive Outline where
  | argument
  | prefixed (op : PrefixOperator) (inner : Outline)
  | infixed (op : InfixOperator) (left right : Outline)
  | constantRight (op : InfixOperator) (left : Outline) (c : ComplexNumber)
  | constantLeft (op : InfixOperator) (c : ComplexNumber) (right : Outline)

/-- The constants that show in the name of an expression, from left to right. -/
def Expression.displayed : Expression → List ComplexNumber
  | .argument => []
  | .number _ => []
  | .prefixed _ e => e.displayed
  | .infixed _ left right =>
    match left.operand, right.operand with
    | .mapped _, .constant c => left.displayed ++ [c]
    | .constant c, .mapped _ => c :: right.displayed
    | _, _ => left.displayed ++ right.displayed

theorem InfixOperator.placeholder_not_mem (op : InfixOperator) :
    NamePattern.placeholder ∉ op.symbol := by
  cases op <;> decide

/-- A written number never looks like a place for an argument, finite or not. -/
theorem Decimal.placeholder_not_mem_plain (x : Float) : NamePattern.placeholder ∉ plain x := by
  intro member
  cases finite : x.isFinite with
  | true =>
    have sort := mem_plain finite member
    revert sort
    decide
  | false =>
    have sort := mem_plain_of_not_isFinite finite member
    revert sort
    decide

theorem Literal.placeholder_not_mem_write (z : ComplexNumber) :
    NamePattern.placeholder ∉ write z := by
  have re := Decimal.placeholder_not_mem_plain z.re
  have im := Decimal.placeholder_not_mem_plain z.im
  have signs : NamePattern.placeholder ≠ '{' ∧ NamePattern.placeholder ≠ ',' ∧
      NamePattern.placeholder ≠ 'i' ∧ NamePattern.placeholder ≠ '}' := by
    decide
  unfold write
  split
  · exact re
  · split
    · split <;> simp [im, signs]
    · simp [re, im, signs]

namespace PrefixOperator

/-- What is written in front of the operand. -/
def lead : PrefixOperator → List Char
  | neg => neg.symbol
  | op => op.symbol ++ [' ']

theorem pattern_eq (op : PrefixOperator) : op.pattern = .wrap op.lead [] := by
  cases op <;> rfl

theorem placeholder_not_mem (op : PrefixOperator) : NamePattern.placeholder ∉ op.lead := by
  cases op <;> decide

end PrefixOperator

namespace Outline

/-- The function that an outline shows. -/
def named : Outline → NamedMap
  | argument => .identity
  | prefixed op inner => inner.named.rightCompose ⟨op.pattern, op.apply⟩
  | infixed op left right => left.named.combine op.symbol op.apply right.named
  | constantRight op left c =>
    left.named.rightCompose
      ⟨.wrap ['('] (op.symbol ++ Literal.write c ++ [')']), fun w => op.apply w c⟩
  | constantLeft op c right =>
    right.named.rightCompose
      ⟨.wrap ('(' :: Literal.write c ++ op.symbol) [')'], fun w => op.apply c w⟩

/-- The constants of an outline, from left to right. -/
def constants : Outline → List ComplexNumber
  | argument => []
  | prefixed _ inner => inner.constants
  | infixed _ left right => left.constants ++ right.constants
  | constantRight _ left c => left.constants ++ [c]
  | constantLeft _ c right => c :: right.constants

/-- The text of an outline around the text of its argument. -/
def render (argument : List Char) : Outline → List Char
  | .argument => argument
  | prefixed op inner => op.lead ++ inner.render argument
  | infixed op left right =>
    '(' :: (left.render argument ++ op.symbol ++ right.render argument ++ [')'])
  | constantRight op left c =>
    '(' :: (left.render argument ++ op.symbol ++ Literal.write c ++ [')'])
  | constantLeft op c right =>
    '(' :: (Literal.write c ++ op.symbol ++ right.render argument ++ [')'])

/-- The name of an outline shows all of it. -/
theorem applyTo_named (t : Outline) (argument : List Char) :
    t.named.pattern.applyTo argument = t.render argument := by
  induction t with
  | argument => simp [named, NamedMap.identity, NamePattern.identity, NamePattern.applyTo, render]
  | prefixed op inner innerShown =>
    rw [named, NamedMap.rightCompose, NamePattern.applyTo_compose, innerShown, op.pattern_eq,
      NamePattern.applyTo_wrap op.placeholder_not_mem List.not_mem_nil, List.append_nil, render]
  | infixed op left right leftShown rightShown =>
    rw [named, NamedMap.combine, NamePattern.applyTo_combine op.placeholder_not_mem, leftShown,
      rightShown, render]
  | constantRight op left c leftShown =>
    have noneAfter : NamePattern.placeholder ∉ op.symbol ++ Literal.write c ++ [')'] := by
      have close : NamePattern.placeholder ≠ ')' := by decide
      simp [op.placeholder_not_mem, Literal.placeholder_not_mem_write, close]
    rw [named, NamedMap.rightCompose, NamePattern.applyTo_compose, leftShown,
      NamePattern.applyTo_wrap (by decide) noneAfter, render]
    simp
  | constantLeft op c right rightShown =>
    have noneBefore : NamePattern.placeholder ∉ '(' :: Literal.write c ++ op.symbol := by
      have open_ : NamePattern.placeholder ≠ '(' := by decide
      simp [op.placeholder_not_mem, Literal.placeholder_not_mem_write, open_]
    rw [named, NamedMap.rightCompose, NamePattern.applyTo_compose, rightShown,
      NamePattern.applyTo_wrap noneBefore (by decide), render]
    simp

theorem display_named (t : Outline) :
    t.named.pattern.display = t.render [NamePattern.variableName] :=
  t.applyTo_named _

/-- Outlines that show in the same way have the same name pattern. -/
theorem pattern_congr {t u : Outline} (same : ∀ argument, t.render argument = u.render argument) :
    t.named.pattern = u.named.pattern := by
  have chars : t.named.pattern.chars = u.named.pattern.chars := by
    rw [← NamePattern.applyTo_placeholder, ← NamePattern.applyTo_placeholder, t.applyTo_named,
      u.applyTo_named, same]
  exact congrArg NamePattern.mk chars

/-- An outline with other constants in the places of its own. -/
def mapConstants (g : ComplexNumber → ComplexNumber) : Outline → Outline
  | argument => argument
  | prefixed op inner => prefixed op (inner.mapConstants g)
  | infixed op left right => infixed op (left.mapConstants g) (right.mapConstants g)
  | constantRight op left c => constantRight op (left.mapConstants g) (g c)
  | constantLeft op c right => constantLeft op (g c) (right.mapConstants g)

theorem constants_mapConstants (g : ComplexNumber → ComplexNumber) (t : Outline) :
    (t.mapConstants g).constants = t.constants.map g := by
  induction t with
  | argument => rfl
  | prefixed op inner innerMapped => exact innerMapped
  | infixed op left right leftMapped rightMapped =>
    rw [mapConstants, constants, leftMapped, rightMapped, constants, List.map_append]
  | constantRight op left c leftMapped =>
    rw [mapConstants, constants, leftMapped, constants, List.map_append]
    rfl
  | constantLeft op c right rightMapped =>
    rw [mapConstants, constants, rightMapped, constants, List.map_cons]

theorem mapConstants_eq_self {g : ComplexNumber → ComplexNumber} {t : Outline}
    (kept : ∀ c ∈ t.constants, g c = c) : t.mapConstants g = t := by
  induction t with
  | argument => rfl
  | prefixed op inner innerKept => rw [mapConstants, innerKept kept]
  | infixed op left right leftKept rightKept =>
    rw [mapConstants, leftKept fun c member => kept c (List.mem_append_left _ member),
      rightKept fun c member => kept c (List.mem_append_right _ member)]
  | constantRight op left c leftKept =>
    rw [mapConstants, leftKept fun c member => kept c (List.mem_append_left _ member),
      kept c (List.mem_append_right _ List.mem_cons_self)]
  | constantLeft op c right rightKept =>
    rw [mapConstants, rightKept fun c member => kept c (List.mem_cons_of_mem _ member),
      kept c List.mem_cons_self]

/-- Constants that are written in the same way show in the same way. -/
theorem render_mapConstants {g : ComplexNumber → ComplexNumber} {t : Outline}
    (written : ∀ c ∈ t.constants, Literal.write (g c) = Literal.write c) (argument : List Char) :
    (t.mapConstants g).render argument = t.render argument := by
  induction t with
  | argument => rfl
  | prefixed op inner innerSame => rw [mapConstants, render, innerSame written, render]
  | infixed op left right leftSame rightSame =>
    rw [mapConstants, render, leftSame fun c member => written c (List.mem_append_left _ member),
      rightSame fun c member => written c (List.mem_append_right _ member), render]
  | constantRight op left c leftSame =>
    rw [mapConstants, render, leftSame fun c member => written c (List.mem_append_left _ member),
      written c (List.mem_append_right _ List.mem_cons_self), render]
  | constantLeft op c right rightSame =>
    rw [mapConstants, render, rightSame fun c member => written c (List.mem_cons_of_mem _ member),
      written c List.mem_cons_self, render]

end Outline

namespace Expression

/-- An expression denotes a constant, of which nothing shows, or the function of an outline with
the constants that show in it. -/
theorem operand_outline (e : Expression) :
    match e.operand with
    | .constant _ => e.displayed = []
    | .mapped f => ∃ t : Outline, t.named = f ∧ t.constants = e.displayed := by
  induction e with
  | argument => exact ⟨.argument, rfl, rfl⟩
  | number value => rfl
  | prefixed op e shown =>
    rw [operand, displayed]
    cases found : e.operand with
    | constant c =>
      rw [found] at shown
      exact shown
    | mapped f =>
      rw [found] at shown
      obtain ⟨t, rfl, same⟩ := shown
      exact ⟨.prefixed op t, rfl, same⟩
  | infixed op left right leftShown rightShown =>
    rw [operand, displayed]
    cases foundLeft : left.operand with
    | constant a =>
      rw [foundLeft] at leftShown
      cases foundRight : right.operand with
      | constant b =>
        rw [foundRight] at rightShown
        simp only [Operand.applyInfix, leftShown, rightShown, List.append_nil]
      | mapped g =>
        rw [foundRight] at rightShown
        obtain ⟨u, rfl, same⟩ := rightShown
        exact ⟨.constantLeft op a u, rfl, congrArg (a :: ·) same⟩
    | mapped f =>
      rw [foundLeft] at leftShown
      obtain ⟨t, rfl, sameLeft⟩ := leftShown
      cases foundRight : right.operand with
      | constant b =>
        exact ⟨.constantRight op t b, rfl, congrArg (· ++ [b]) sameLeft⟩
      | mapped g =>
        rw [foundRight] at rightShown
        obtain ⟨u, rfl, sameRight⟩ := rightShown
        exact ⟨.infixed op t u, rfl, congrArg₂ (· ++ ·) sameLeft sameRight⟩

end Expression
end DomainColoring
