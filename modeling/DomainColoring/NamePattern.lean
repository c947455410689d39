/-!
# Name patterns

The name of a function is kept as a pattern in which `#` stands for the argument, so that
composing functions is substituting patterns. Every `#` stands for the same argument.
-/

namespace DomainColoring

/-- A name with places for an argument. -/
structure NamePattern where
  chars : List Char
deriving DecidableEq

namespace NamePattern

/-- The mark that stands for the argument. -/
def placeholder : Char := '#'

/-- The argument of a function that is shown on its own. -/
def variableName : Char := 'z'

/-- The pattern with these characters, if the argument occurs in it. -/
def ofChars? (chars : List Char) : Option NamePattern :=
  if placeholder ∈ chars then some ⟨chars⟩ else none

/-- The pattern of the identity: the argument alone. -/
def identity : NamePattern :=
  ⟨[placeholder]⟩

/-- The argument between two texts. -/
def wrap (before after : List Char) : NamePattern :=
  ⟨before ++ placeholder :: after⟩

/-- The characters of a pattern with an argument put in all its places. -/
def applyTo (pattern : NamePattern) (argument : List Char) : List Char :=
  pattern.chars.flatMap fun c => if c = placeholder then argument else [c]

/-- The name that is shown: the pattern applied to the variable. -/
def display (pattern : NamePattern) : List Char :=
  pattern.applyTo [variableName]

/-- The pattern of `outer` after `inner`. -/
def compose (outer inner : NamePattern) : NamePattern :=
  ⟨outer.applyTo inner.chars⟩

/-- The pattern of an infix operator between two functions of the same argument. -/
def combine (left : NamePattern) (symbol : List Char) (right : NamePattern) : NamePattern :=
  ⟨'(' :: left.chars ++ symbol ++ right.chars ++ [')']⟩

end NamePattern
end DomainColoring
