import DomainColoring.NamedMap
import DomainColoring.Proofs.NamePattern

/-!
# The algebra of named functions

Composition of named functions has the laws of composition for the names as texts and for the maps
alike: two functions that these laws equate have the same name pattern and the same value at every
point. The laws hold for all patterns, with any number of places for the argument.
-/

namespace DomainColoring.NamedMap

theorem leftCompose_assoc (f g h : NamedMap) :
    (f.leftCompose g).leftCompose h = f.leftCompose (g.leftCompose h) :=
  congrArg (mk · _) (f.pattern.compose_assoc g.pattern h.pattern)

theorem leftCompose_identity (f : NamedMap) : f.leftCompose identity = f :=
  congrArg (mk · _) f.pattern.compose_identity

theorem identity_leftCompose (f : NamedMap) : identity.leftCompose f = f :=
  congrArg (mk · _) f.pattern.identity_compose

/-- Both sides of an infix operator have the same argument. -/
theorem combine_leftCompose {symbol : List Char} (none : NamePattern.placeholder ∉ symbol)
    (op : ComplexNumber → ComplexNumber → ComplexNumber) (f g h : NamedMap) :
    (f.combine symbol op g).leftCompose h =
      (f.leftCompose h).combine symbol op (g.leftCompose h) :=
  congrArg (mk · _) (NamePattern.combine_compose none f.pattern g.pattern h.pattern)

/-- The name of a composition is the outer pattern with the name of the inner function in each
place. -/
theorem name_leftCompose (f g : NamedMap) :
    (f.leftCompose g).name.toList =
      g.name.toList.intercalate (f.pattern.chars.splitOn NamePattern.placeholder) := by
  rw [name, name, String.toList_ofList, String.toList_ofList]
  exact f.pattern.display_compose g.pattern

/-- To compose on the right with a function is to compose it on the left, composition is
associative with the identity as its unit on both sides, an infix operator without the mark of the
argument in its symbol is composed on both of its sides, and it makes no difference whether a
function comes as a whole or as its name pattern and map. The patterns that can be made are those
with a place for the argument, and the name of a composition has the inner name in each place of
the outer pattern. -/
theorem composition_laws :
    (∀ f g : NamedMap, f.rightCompose g = g.leftCompose f) ∧
    (∀ f g h : NamedMap, (f.leftCompose g).leftCompose h = f.leftCompose (g.leftCompose h)) ∧
    (∀ f : NamedMap, f.leftCompose identity = f ∧ identity.leftCompose f = f) ∧
    (∀ (symbol : List Char) (op : ComplexNumber → ComplexNumber → ComplexNumber)
        (f g h : NamedMap), NamePattern.placeholder ∉ symbol →
      (f.combine symbol op g).leftCompose h =
        (f.leftCompose h).combine symbol op (g.leftCompose h)) ∧
    (∀ (f : NamedMap) (pattern : NamePattern) (map : ComplexNumber → ComplexNumber),
      f.rightComposeWith pattern map = f.rightCompose ⟨pattern, map⟩ ∧
        f.leftComposeWith pattern map = f.leftCompose ⟨pattern, map⟩) ∧
    (∀ pattern : NamePattern, pattern.Made ↔ NamePattern.placeholder ∈ pattern.chars) ∧
    ∀ f g : NamedMap, (f.leftCompose g).name.toList =
      g.name.toList.intercalate (f.pattern.chars.splitOn NamePattern.placeholder) := by
  refine ⟨fun _ _ => rfl, leftCompose_assoc, ?_, ?_, fun _ _ _ => ⟨rfl, rfl⟩,
    fun _ => NamePattern.made_iff, name_leftCompose⟩
  · exact fun f => ⟨f.leftCompose_identity, f.identity_leftCompose⟩
  · exact fun symbol op f g h none => combine_leftCompose none op f g h

/-- The argument is negated in both places of a product. -/
theorem composition_laws_product :
    let exponential : NamedMap := ⟨.wrap ['e', 'x', 'p', ' '] [], .exp⟩
    let negation : NamedMap := ⟨.wrap ['-'] [], .neg⟩
    let product := identity.combine ['*'] .mul exponential
    NamePattern.placeholder ∉ ['*'] ∧
      product.leftCompose negation =
        (identity.leftCompose negation).combine ['*'] .mul (exponential.leftCompose negation) ∧
      (product.leftCompose negation).name = "(-z*exp -z)" := by
  intro exponential negation product
  have none : NamePattern.placeholder ∉ ['*'] := by decide
  obtain ⟨-, -, -, distributes, -, -, -⟩ := composition_laws
  exact ⟨none, distributes ['*'] .mul identity exponential negation none, rfl⟩

end DomainColoring.NamedMap
