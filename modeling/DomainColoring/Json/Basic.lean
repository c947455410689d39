/-!
# JSON values

A value as it stands in a text, faults included: reading goes from front to back, and what
a decoder sees of a text must not depend on a fault behind the place where it stops. So a
fault is a value or an open end in the tree, at its place, rather than a failure of the whole.
-/

namespace DomainColoring

/-- What a JSON text holds. -/
inductive Json where
  | null
  | bool (value : Bool)
  /-- A whole number that is not negative. -/
  | natural (value : UInt64)
  /-- A negative whole number, by its magnitude. -/
  | negative (magnitude : UInt64)
  /-- A number with a fraction or an exponent, or a whole number out of range. -/
  | real (value : Float)
  | string (text : List Char)
  /-- Items in order; an array that is not closed ends in a fault. -/
  | array (items : List Json) (closed : Bool)
  /-- Members in order, repeated names included. A name is a string or else a fault; an object
  that is not closed ends in a fault. -/
  | object (members : List (Json × Json)) (closed : Bool)
  /-- No value. It is passable if the text has the form of a value, such as a number past
  the greatest one, so that skipping it is no fault. -/
  | broken (passable : Bool)

namespace Json

/-- An array without faults. -/
def list (items : List Json) : Json :=
  .array items true

/-- A string value. -/
def text (s : String) : Json :=
  .string s.toList

/-- An object without faults. -/
def record (members : List (String × Json)) : Json :=
  .object (members.map fun (name, value) => (text name, value)) true

mutual

/-- Whether a value can be skipped: it has the form of a value through and through. -/
def isPassable : Json → Bool
  | .array items closed => closed && itemsPassable items
  | .object members closed => closed && membersPassable members
  | .broken passable => passable
  | _ => true

def itemsPassable : List Json → Bool
  | [] => true
  | item :: rest => item.isPassable && itemsPassable rest

def membersPassable : List (Json × Json) → Bool
  | [] => true
  | (name, value) :: rest => name.isPassable && value.isPassable && membersPassable rest

end

end Json
end DomainColoring
