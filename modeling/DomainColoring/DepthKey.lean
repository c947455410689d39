import DomainColoring.ComplexNumber
import DomainColoring.Json.Decoder

/-!
# Depth keys

When several samples fall on one pixel, a number taken from the source point of each decides
which of them is drawn on top.
-/

namespace DomainColoring

/-- Which number of the source point decides. -/
inductive DepthKey where
  | real
  | imaginary
  | magnitude
deriving DecidableEq, Repr

namespace DepthKey

/-- The key of a source point. -/
def key : DepthKey → ComplexNumber → Float
  | real, point => point.re
  | imaginary, point => point.im
  | magnitude, point => point.norm

def name : DepthKey → String
  | real => "real"
  | imaginary => "imaginary"
  | magnitude => "magnitude"

def all : List DepthKey := [real, imaginary, magnitude]

/-- The depth key of a name. -/
def ofName? (name : String) : Option DepthKey :=
  all.find? fun key => key.name = name

def toJson (k : DepthKey) : Json :=
  .text k.name

/-- A depth key by its name. -/
def decode (value : Json) : Except DecodeError DepthKey := do
  let name ← Json.decodeVariant (all.map DepthKey.name) value
  match ofName? name with
  | some key => return key
  | none => throw .malformed

end DepthKey
end DomainColoring
