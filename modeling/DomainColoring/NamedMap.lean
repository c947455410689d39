import DomainColoring.ComplexNumber
import DomainColoring.NamePattern

/-!
# Named complex functions

A named map is a total function of the complex plane together with its name pattern. The
operations build the name and the function side by side.
-/

namespace DomainColoring

/-- A complex function and its name. -/
structure NamedMap where
  pattern : NamePattern
  map : ComplexNumber → ComplexNumber

namespace NamedMap

/-- The function that returns its argument. -/
def identity : NamedMap :=
  ⟨.identity, fun z => z⟩

/-- The name that is shown. -/
def name (f : NamedMap) : String :=
  String.ofList f.pattern.display

/-- `f` first, then `outer`. -/
def rightCompose (f outer : NamedMap) : NamedMap :=
  ⟨outer.pattern.compose f.pattern, fun z => outer.map (f.map z)⟩

/-- `inner` first, then `f`. -/
def leftCompose (f inner : NamedMap) : NamedMap :=
  ⟨f.pattern.compose inner.pattern, fun z => f.map (inner.map z)⟩

/-- `f` first, then a function that comes as a name pattern and a map. -/
def rightComposeWith (f : NamedMap) (pattern : NamePattern)
    (outer : ComplexNumber → ComplexNumber) : NamedMap :=
  ⟨pattern.compose f.pattern, fun z => outer (f.map z)⟩

/-- A function that comes as a name pattern and a map first, then `f`. -/
def leftComposeWith (f : NamedMap) (pattern : NamePattern)
    (inner : ComplexNumber → ComplexNumber) : NamedMap :=
  ⟨f.pattern.compose pattern, fun z => f.map (inner z)⟩

/-- An infix operation on the values of two functions at the same argument. -/
def combine (f : NamedMap) (symbol : List Char)
    (operation : ComplexNumber → ComplexNumber → ComplexNumber) (g : NamedMap) : NamedMap :=
  ⟨f.pattern.combine symbol g.pattern, fun z => operation (f.map z) (g.map z)⟩

end NamedMap
end DomainColoring
