import DomainColoring.NamePattern
import Mathlib

/-!
# Putting texts in the places of a pattern

What a pattern shows with an argument in its places follows from what its parts show with the
same argument. A pattern is what it shows with the mark itself as argument.
-/

namespace DomainColoring.NamePattern

theorem applyTo_placeholder (pattern : NamePattern) :
    pattern.applyTo [placeholder] = pattern.chars := by
  have same : (fun c => if c = placeholder then [placeholder] else [c]) = fun c => [c] := by
    funext c
    split
    · next isPlaceholder => rw [isPlaceholder]
    · rfl
  rw [applyTo, same]
  exact List.flatMap_singleton' pattern.chars

/-- A text without places for an argument stays as it is. -/
theorem flatMap_of_not_mem {text : List Char} (none : placeholder ∉ text) (argument : List Char) :
    text.flatMap (fun c => if c = placeholder then argument else [c]) = text := by
  induction text with
  | nil => rfl
  | cons c rest inductionHypothesis =>
    have noPlaceholder : c ≠ placeholder := fun same => none (same ▸ List.mem_cons_self)
    have restStays := inductionHypothesis fun member => none (List.mem_cons_of_mem _ member)
    rw [List.flatMap_cons, restStays, if_neg noPlaceholder, List.singleton_append]

theorem applyTo_wrap {before after : List Char} (noneBefore : placeholder ∉ before)
    (noneAfter : placeholder ∉ after) (argument : List Char) :
    (wrap before after).applyTo argument = before ++ argument ++ after := by
  rw [applyTo, wrap, List.flatMap_append, List.flatMap_cons, flatMap_of_not_mem noneBefore,
    flatMap_of_not_mem noneAfter, if_pos rfl, List.append_assoc]

/-- Composing patterns is putting the inner one in all places of the outer one. -/
theorem applyTo_compose (outer inner : NamePattern) (argument : List Char) :
    (outer.compose inner).applyTo argument = outer.applyTo (inner.applyTo argument) := by
  rw [applyTo, compose, applyTo, List.flatMap_assoc, applyTo]
  congr 1
  funext c
  split
  · rfl
  · next noPlaceholder => simp [noPlaceholder]

theorem applyTo_combine {symbol : List Char} (none : placeholder ∉ symbol)
    (left right : NamePattern) (argument : List Char) :
    (left.combine symbol right).applyTo argument =
      '(' :: (left.applyTo argument ++ symbol ++ right.applyTo argument ++ [')']) := by
  have signs : '(' ≠ placeholder ∧ ')' ≠ placeholder := by decide
  simp [combine, applyTo, flatMap_of_not_mem none, signs]

/-- Putting an argument in the places of a pattern is joining, with the argument between them,
the parts that the places divide it into. -/
theorem applyTo_eq_intercalate (pattern : NamePattern) (argument : List Char) :
    pattern.applyTo argument = argument.intercalate (pattern.chars.splitOn placeholder) := by
  obtain ⟨chars⟩ := pattern
  change chars.flatMap _ = _
  induction chars with
  | nil => simp
  | cons c rest inductionHypothesis =>
    obtain ⟨part, others, shape⟩ :=
      List.exists_cons_of_ne_nil (List.splitOn_ne_nil placeholder rest)
    rw [List.flatMap_cons, inductionHypothesis, List.splitOn_cons_eq_if_modifyHead, shape]
    by_cases isPlaceholder : c = placeholder
    · simp [isPlaceholder, List.intercalate_cons_cons]
    · simp [isPlaceholder, List.intercalate_cons_cons_left]

@[simp] theorem compose_identity (pattern : NamePattern) : pattern.compose identity = pattern :=
  congrArg mk pattern.applyTo_placeholder

@[simp] theorem identity_compose (pattern : NamePattern) : identity.compose pattern = pattern := by
  simp [compose, identity, applyTo]

theorem compose_assoc (outer middle inner : NamePattern) :
    (outer.compose middle).compose inner = outer.compose (middle.compose inner) :=
  congrArg mk (applyTo_compose outer middle inner.chars)

/-- The argument of both sides of an infix operator is the same. -/
theorem combine_compose {symbol : List Char} (none : placeholder ∉ symbol)
    (left right inner : NamePattern) :
    (left.combine symbol right).compose inner =
      (left.compose inner).combine symbol (right.compose inner) :=
  congrArg mk (applyTo_combine none left right inner.chars)

/-- What a composition shows: the outer pattern with what the inner one shows in each place. -/
theorem display_compose (outer inner : NamePattern) :
    (outer.compose inner).display =
      inner.display.intercalate (outer.chars.splitOn placeholder) := by
  rw [display, applyTo_compose, applyTo_eq_intercalate]
  rfl

/-- The patterns that are made by the operations on patterns. -/
inductive Made : NamePattern → Prop where
  | ofChars {chars pattern} (accepted : ofChars? chars = some pattern) : Made pattern
  | wrap (before after : List Char) : Made (.wrap before after)
  | identity : Made .identity
  | compose {outer inner} (madeOuter : Made outer) (madeInner : Made inner) :
      Made (outer.compose inner)
  | combine {left right} (madeLeft : Made left) (symbol : List Char) (madeRight : Made right) :
      Made (left.combine symbol right)

theorem placeholder_mem_compose {outer inner : NamePattern} (inOuter : placeholder ∈ outer.chars)
    (inInner : placeholder ∈ inner.chars) : placeholder ∈ (outer.compose inner).chars := by
  rw [compose, applyTo, List.mem_flatMap]
  exact ⟨placeholder, inOuter, by rwa [if_pos rfl]⟩

/-- A pattern with a place for the argument can be made, and no other. -/
theorem made_iff {pattern : NamePattern} : Made pattern ↔ placeholder ∈ pattern.chars := by
  constructor
  · intro made
    induction made with
    | @ofChars chars pattern accepted =>
      rw [ofChars?] at accepted
      split at accepted
      · next member =>
        cases accepted
        exact member
      · cases accepted
    | wrap before after => simp [wrap]
    | identity => simp [identity]
    | compose madeOuter madeInner inOuter inInner => exact placeholder_mem_compose inOuter inInner
    | combine madeLeft symbol madeRight inLeft inRight => simp [combine, inLeft]
  · intro member
    exact .ofChars (if_pos member)

end DomainColoring.NamePattern
