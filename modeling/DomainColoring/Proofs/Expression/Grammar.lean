import DomainColoring.Expression.Parser
import Mathlib

/-!
# The grammar of expressions

Derivations of expressions as trees. A layer is an operand followed by any number of operators
of the layer, each with another operand; an operand of a layer is an expression of the layer
that binds tighter, and of the tightest layer it is a part. A part is a prefix operator in front
of a part, the argument, a number, or an expression in parentheses.

Derivations know nothing of the parser: nothing is looked at ahead, and parentheses are part of
a derivation although they leave no trace in its expression.
-/

namespace DomainColoring

namespace Grammar

/-- The nonterminal symbols. What follows the first operand of a layer has its own symbol. -/
inductive Symbol where
  | layer (l : Layer)
  | operand (l : Layer)
  | rest (l : Layer)
  | part

/-- The derivations from a symbol. -/
inductive Derivation : Symbol → Type where
  | operands {l} (first : Derivation (.operand l)) (others : Derivation (.rest l)) :
      Derivation (.layer l)
  | product (inner : Derivation (.layer .product)) : Derivation (.operand .sum)
  | power (inner : Derivation (.layer .power)) : Derivation (.operand .product)
  | single (inner : Derivation .part) : Derivation (.operand .power)
  | stop {l} : Derivation (.rest l)
  | more {l} (sign : Token) (op : InfixOperator) (isOperator : l.operator? sign = some op)
      (right : Derivation (.operand l)) (others : Derivation (.rest l)) : Derivation (.rest l)
  | prefixed (sign : Token) (op : PrefixOperator) (isOperator : sign.prefixOperator? = some op)
      (inner : Derivation .part) : Derivation .part
  | argument : Derivation .part
  | number (value : ComplexNumber) : Derivation .part
  | parenthesized (inner : Derivation (.layer .sum)) : Derivation .part

/-- What a derivation from a symbol stands for: an expression, or, behind the first operand of a
layer, what becomes of the expression on the left. -/
def Meaning : Symbol → Type
  | .rest _ => Expression → Expression
  | _ => Expression

namespace Derivation

/-- The tokens that a derivation derives. -/
def tokens : {s : Symbol} → Derivation s → List Token
  | _, operands first others => first.tokens ++ others.tokens
  | _, product inner => inner.tokens
  | _, power inner => inner.tokens
  | _, single inner => inner.tokens
  | _, stop => []
  | _, more sign _ _ right others => sign :: (right.tokens ++ others.tokens)
  | _, prefixed sign _ _ inner => sign :: inner.tokens
  | _, argument => [.argument]
  | _, number value => [.number value]
  | _, parenthesized inner => .leftParen :: (inner.tokens ++ [.rightParen])

/-- The meaning of a derivation: the operators of a layer group to the left. -/
def meaning : {s : Symbol} → Derivation s → Meaning s
  | _, operands first others => others.meaning first.meaning
  | _, product inner => inner.meaning
  | _, power inner => inner.meaning
  | _, single inner => inner.meaning
  | _, stop => fun left => left
  | _, more _ op _ right others => fun left => others.meaning (.infixed op left right.meaning)
  | _, prefixed _ op _ inner => .prefixed op inner.meaning
  | _, argument => .argument
  | _, number value => .number value
  | _, parenthesized inner => inner.meaning

end Derivation

/-- The layers that bind tighter than a layer. -/
def tighter : Layer → List Layer
  | .sum => [.product, .power]
  | .product => [.power]
  | .power => []

/-- Whether a token is an operator that binds more of what stands behind a derivation to it. -/
def continues : Symbol → Token → Bool
  | .layer l, token | .rest l, token => (l :: tighter l).any fun m => (m.operator? token).isSome
  | .operand l, token => (tighter l).any fun m => (m.operator? token).isSome
  | .part, _ => false

/-- A list of tokens does not begin with one that continues a derivation. -/
def Stops (s : Symbol) (tokens : List Token) : Prop :=
  ∀ token ∈ tokens.head?, continues s token = false

theorem continues_operand {l : Layer} {sign : Token} {op : InfixOperator}
    (isOperator : l.operator? sign = some op) : continues (.operand l) sign = false := by
  cases l <;> cases sign <;> first | rfl | cases isOperator

theorem operator?_eq_none {l : Layer} {token : Token} (stops : continues (.rest l) token = false) :
    l.operator? token = none := by
  simp only [continues, List.any_cons, Bool.or_eq_false_iff] at stops
  exact Option.not_isSome_iff_eq_none.mp (by simp [stops.1])

theorem Stops.operand {l : Layer} {tokens : List Token} (stops : Stops (.rest l) tokens) :
    Stops (.operand l) tokens := by
  intro token first
  have none := stops token first
  simp only [continues, List.any_cons, Bool.or_eq_false_iff] at none
  exact none.2

theorem stops_part (tokens : List Token) : Stops .part tokens :=
  fun _ _ => rfl

theorem stops_rightParen (s : Symbol) (tokens : List Token) : Stops s (.rightParen :: tokens) := by
  intro token first
  cases first
  rcases s with l | l | l | _
  · cases l <;> rfl
  · cases l <;> rfl
  · cases l <;> rfl
  · rfl

namespace Derivation

/-- Behind an operand of a layer comes what stops it: an operator of the layer, or what comes
behind the layer. -/
theorem stops_others {l : Layer} (others : Derivation (.rest l)) {tokens : List Token}
    (stops : Stops (.rest l) tokens) : Stops (.operand l) (others.tokens ++ tokens) := by
  cases others with
  | stop => exact stops.operand
  | more sign op isOperator right others =>
    intro token first
    cases first
    exact continues_operand isOperator

/-- No other derivation from the same symbol begins a list of tokens that begins with this one, if
what is left continues neither. -/
def Determined {s : Symbol} (d : Derivation s) : Prop :=
  ∀ (e : Derivation s) {left right : List Token}, Stops s left → Stops s right →
    d.tokens ++ left = e.tokens ++ right → d = e ∧ left = right

theorem Determined.operands {l : Layer} {first : Derivation (.operand l)}
    {others : Derivation (.rest l)} (firstDetermined : first.Determined)
    (othersDetermined : others.Determined) : (operands first others).Determined := by
  intro e left right leftStops rightStops same
  cases e with
  | operands first' others' =>
    simp only [tokens, List.append_assoc] at same
    obtain ⟨rfl, sameOthers⟩ := firstDetermined first' (others.stops_others leftStops)
      (others'.stops_others rightStops) same
    obtain ⟨rfl, rfl⟩ := othersDetermined others' leftStops rightStops sameOthers
    exact ⟨rfl, rfl⟩

/-- Where all derivations from a symbol are those from another one, they are determined as these
are. -/
theorem Determined.renamed {s t : Symbol} {rename : Derivation s → Derivation t}
    {inner : Derivation s} (determined : inner.Determined)
    (sameTokens : ∀ d, (rename d).tokens = d.tokens) (onto : ∀ e, ∃ d, rename d = e)
    (stopsInner : ∀ tokens, Stops t tokens → Stops s tokens) : (rename inner).Determined := by
  intro e left right leftStops rightStops same
  obtain ⟨inner', rfl⟩ := onto e
  rw [sameTokens, sameTokens] at same
  obtain ⟨rfl, rfl⟩ :=
    determined inner' (stopsInner _ leftStops) (stopsInner _ rightStops) same
  exact ⟨rfl, rfl⟩

theorem determined_stop (l : Layer) : (stop : Derivation (.rest l)).Determined := by
  intro e left right leftStops rightStops same
  cases e with
  | stop => exact ⟨rfl, same⟩
  | more sign op isOperator right' others =>
    have none := operator?_eq_none (leftStops sign (by rw [show left = _ from same]; rfl))
    rw [isOperator] at none
    cases none

theorem Determined.more {l : Layer} {sign : Token} {op : InfixOperator}
    (isOperator : l.operator? sign = some op) {right : Derivation (.operand l)}
    {others : Derivation (.rest l)} (rightDetermined : right.Determined)
    (othersDetermined : others.Determined) :
    (more sign op isOperator right others).Determined := by
  intro e left tail leftStops rightStops same
  cases e with
  | stop =>
    have none := operator?_eq_none (rightStops sign (by rw [show tail = _ from same.symm]; rfl))
    rw [isOperator] at none
    cases none
  | more sign' op' isOperator' right' others' =>
    simp only [tokens, List.cons_append, List.append_assoc, List.cons.injEq] at same
    obtain ⟨rfl, same⟩ := same
    obtain rfl : op = op' := Option.some.inj (isOperator.symm.trans isOperator')
    obtain ⟨rfl, sameOthers⟩ := rightDetermined right' (others.stops_others leftStops)
      (others'.stops_others rightStops) same
    obtain ⟨rfl, rfl⟩ := othersDetermined others' leftStops rightStops sameOthers
    exact ⟨rfl, rfl⟩

section Parts

variable {e : Derivation .part} {behind right : List Token}

/-- The first token of a part tells which kind of part it is. -/
theorem exists_prefixed {sign : Token} {op : PrefixOperator}
    (isOperator : sign.prefixOperator? = some op) (same : sign :: behind = e.tokens ++ right) :
    ∃ inner, e = prefixed sign op isOperator inner := by
  cases e with
  | prefixed sign' op' isOperator' inner =>
    obtain rfl := (List.cons.inj same).1
    obtain rfl : op = op' := Option.some.inj (isOperator.symm.trans isOperator')
    exact ⟨inner, rfl⟩
  | _ =>
    obtain rfl := (List.cons.inj same).1
    cases isOperator

theorem eq_argument (same : .argument :: behind = e.tokens ++ right) : e = argument := by
  cases e with
  | prefixed sign op isOperator inner =>
    obtain rfl := (List.cons.inj same).1
    cases isOperator
  | argument => rfl
  | _ => cases (List.cons.inj same).1

theorem eq_number {value : ComplexNumber} (same : .number value :: behind = e.tokens ++ right) :
    e = number value := by
  cases e with
  | prefixed sign op isOperator inner =>
    obtain rfl := (List.cons.inj same).1
    cases isOperator
  | number value' => rw [Token.number.inj (List.cons.inj same).1]
  | _ => cases (List.cons.inj same).1

theorem exists_parenthesized (same : .leftParen :: behind = e.tokens ++ right) :
    ∃ inner, e = parenthesized inner := by
  cases e with
  | prefixed sign op isOperator inner =>
    obtain rfl := (List.cons.inj same).1
    cases isOperator
  | parenthesized inner => exact ⟨inner, rfl⟩
  | _ => cases (List.cons.inj same).1

end Parts

theorem Determined.prefixed {sign : Token} {op : PrefixOperator}
    (isOperator : sign.prefixOperator? = some op) {inner : Derivation .part}
    (determined : inner.Determined) : (prefixed sign op isOperator inner).Determined := by
  intro e left right leftStops rightStops same
  obtain ⟨inner', rfl⟩ := exists_prefixed isOperator same
  obtain ⟨rfl, rfl⟩ := determined inner' leftStops rightStops (List.cons.inj same).2
  exact ⟨rfl, rfl⟩

theorem Determined.parenthesized {inner : Derivation (.layer .sum)}
    (determined : inner.Determined) : (parenthesized inner).Determined := by
  intro e left right leftStops rightStops same
  obtain ⟨inner', rfl⟩ := exists_parenthesized same
  simp only [tokens, List.cons_append, List.append_assoc, List.nil_append, List.cons.injEq,
    true_and] at same
  obtain ⟨rfl, sameEnd⟩ :=
    determined inner' (stops_rightParen _ _) (stops_rightParen _ _) same
  exact ⟨rfl, (List.cons.inj sameEnd).2⟩

/-- A list of tokens begins with at most one derivation that what is left does not continue. -/
theorem unique {s : Symbol} (d : Derivation s) : d.Determined := by
  induction d with
  | operands first others firstDetermined othersDetermined =>
    exact firstDetermined.operands othersDetermined
  | product inner innerDetermined =>
    exact innerDetermined.renamed (fun _ => rfl) (fun | product d => ⟨d, rfl⟩) fun _ stops => stops
  | power inner innerDetermined =>
    exact innerDetermined.renamed (fun _ => rfl) (fun | power d => ⟨d, rfl⟩) fun _ stops => stops
  | single inner innerDetermined =>
    exact innerDetermined.renamed (fun _ => rfl) (fun | single d => ⟨d, rfl⟩)
      fun _ _ => stops_part _
  | stop => exact determined_stop _
  | more sign op isOperator right others rightDetermined othersDetermined =>
    exact Determined.more isOperator rightDetermined othersDetermined
  | prefixed sign op isOperator inner innerDetermined =>
    exact Determined.prefixed isOperator innerDetermined
  | argument =>
    intro e left right leftStops rightStops same
    obtain rfl := eq_argument same
    exact ⟨rfl, (List.cons.inj same).2⟩
  | number value =>
    intro e left right leftStops rightStops same
    obtain rfl := eq_number same
    exact ⟨rfl, (List.cons.inj same).2⟩
  | parenthesized inner innerDetermined => exact innerDetermined.parenthesized

end Derivation

end Grammar
end DomainColoring
