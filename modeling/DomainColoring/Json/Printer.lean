import DomainColoring.Decimal.Layout
import DomainColoring.Json.Text
import DomainColoring.Json.Basic

/-!
# Writing JSON

Two layouts of the same tokens: compact, without any space, and indented, with one item or
member a line. A value that is broken has no text of its own and stands as `null`.
-/

namespace DomainColoring.Json

/-- The text of a value that is neither array nor object. -/
def scalarText : Json → List Char
  | .bool true => "true".toList
  | .bool false => "false".toList
  | .natural value => Decimal.digits value.toNat
  | .negative magnitude => '-' :: Decimal.digits magnitude.toNat
  | .real value => Decimal.Layout.json.chars value
  | .string text => Text.write text
  | _ => "null".toList

mutual

def compactText : Json → List Char
  | .array items _ => '[' :: compactItems items ++ [']']
  | .object members _ => '{' :: compactMembers members ++ ['}']
  | value => scalarText value

def compactItems : List Json → List Char
  | [] => []
  | [item] => compactText item
  | item :: next :: rest => compactText item ++ ',' :: compactItems (next :: rest)

def compactMembers : List (Json × Json) → List Char
  | [] => []
  | [(name, value)] => compactText name ++ ':' :: compactText value
  | (name, value) :: next :: rest =>
    compactText name ++ ':' :: compactText value ++ ',' :: compactMembers (next :: rest)

end

/-- A line break and two spaces for each level. -/
def newline (level : Nat) : List Char :=
  '\n' :: List.replicate (2 * level) ' '

mutual

/-- A value whose lines behind the first are indented by a level. -/
def indentedText (level : Nat) : Json → List Char
  | .array [] _ => ['[', ']']
  | .array (item :: rest) _ =>
    '[' :: indentedItems (level + 1) (item :: rest) ++ newline level ++ [']']
  | .object [] _ => ['{', '}']
  | .object (member :: rest) _ =>
    '{' :: indentedMembers (level + 1) (member :: rest) ++ newline level ++ ['}']
  | value => scalarText value

def indentedItems (level : Nat) : List Json → List Char
  | [] => []
  | [item] => newline level ++ indentedText level item
  | item :: next :: rest =>
    newline level ++ indentedText level item ++ ',' :: indentedItems level (next :: rest)

def indentedMembers (level : Nat) : List (Json × Json) → List Char
  | [] => []
  | [(name, value)] =>
    newline level ++ compactText name ++ [':', ' '] ++ indentedText level value
  | (name, value) :: next :: rest =>
    newline level ++ compactText name ++ [':', ' '] ++ indentedText level value
      ++ ',' :: indentedMembers level (next :: rest)

end

/-- The compact text of a value. -/
def compact (value : Json) : String :=
  String.ofList (compactText value)

/-- The indented text of a value. -/
def indented (value : Json) : String :=
  String.ofList (indentedText 0 value)

end DomainColoring.Json
