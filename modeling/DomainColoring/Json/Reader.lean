import DomainColoring.Json.Numeral
import DomainColoring.Json.Text

/-!
# Reading JSON

The readers return a value and the text behind it. Behind a fault nothing is read any more,
so there is no text then; the arrays and objects around the fault stay open.
-/

namespace DomainColoring.Json

/-- Whether a character may stand between the parts of a JSON text. -/
def isSpace (c : Char) : Bool :=
  c = ' ' || c = '\n' || c = '\t' || c = '\r'

/-- A text from its first character on that is no space. -/
def skipSpace (text : List Char) : List Char :=
  text.dropWhile isSpace

/-- A string behind its opening quote. -/
def readString (text : List Char) : Json × Option (List Char) :=
  match Text.pieces? text with
  | none => (.broken false, none)
  | some (pieces, rest) =>
    match Text.join? pieces with
    | some chars => (.string chars, some rest)
    | none => (.broken true, some rest)

/-- A number, which a digit or a minus sign begins. -/
def readNumber (text : List Char) : Json × Option (List Char) :=
  match Numeral.read? text with
  | some (numeral, rest) => (numeral.value, some rest)
  | none => (.broken false, none)

mutual

/-- The value in front of a text, in a number of steps. -/
def readValue : Nat → List Char → Json × Option (List Char)
  | 0, _ => (.broken false, none)
  | steps + 1, text =>
    match skipSpace text with
    | 'n' :: 'u' :: 'l' :: 'l' :: rest => (.null, some rest)
    | 't' :: 'r' :: 'u' :: 'e' :: rest => (.bool true, some rest)
    | 'f' :: 'a' :: 'l' :: 's' :: 'e' :: rest => (.bool false, some rest)
    | '"' :: rest => readString rest
    | '[' :: rest =>
      match skipSpace rest with
      | ']' :: after => (.array [] true, some after)
      | _ =>
        let (items, after) := readItems steps rest
        (.array items after.isSome, after)
    | '{' :: rest =>
      match skipSpace rest with
      | '}' :: after => (.object [] true, some after)
      | _ =>
        let (members, after) := readMembers steps rest
        (.object members after.isSome, after)
    | first :: rest =>
      if first = '-' ∨ first.isDigit then readNumber (first :: rest) else (.broken false, none)
    | [] => (.broken false, none)

/-- Items up to the end of their array. -/
def readItems : Nat → List Char → List Json × Option (List Char)
  | 0, _ => ([], none)
  | steps + 1, text =>
    match readValue steps text with
    | (item, none) => ([item], none)
    | (item, some rest) =>
      match skipSpace rest with
      | ',' :: rest =>
        let (items, after) := readItems steps rest
        (item :: items, after)
      | ']' :: after => ([item], some after)
      | _ => ([item], none)

/-- Members up to the end of their object. A name that is none, or is without a colon, has a
value that is none. -/
def readMembers : Nat → List Char → List (Json × Json) × Option (List Char)
  | 0, _ => ([], none)
  | steps + 1, text =>
    match readName steps text with
    | (name, none) => ([(name, .broken false)], none)
    | (name, some rest) =>
      match readValue steps rest with
      | (value, none) => ([(name, value)], none)
      | (value, some rest) =>
        match skipSpace rest with
        | ',' :: rest =>
          let (members, after) := readMembers steps rest
          ((name, value) :: members, after)
        | '}' :: after => ([(name, value)], some after)
        | _ => ([(name, value)], none)

/-- The name of a member, and the text behind its colon. Only a string can be a name. -/
def readName : Nat → List Char → Json × Option (List Char)
  | 0, _ => (.broken false, none)
  | steps + 1, text =>
    match skipSpace text with
    | '"' :: rest =>
      match readString rest with
      | (name, none) => (name, none)
      | (name, some rest) =>
        match skipSpace rest with
        | ':' :: rest => (name, some rest)
        | _ => (name, none)
    | _ => ((readValue steps text).1, none)

end

/-- The value that a text holds, and whether nothing but space stands behind it. Each step
that reads on takes a character, and at most three of them share one. -/
def read (text : List Char) : Json × Bool :=
  let (value, after) := readValue (3 * text.length + 3) text
  (value, match after with
    | some rest => (skipSpace rest).isEmpty
    | none => false)

end DomainColoring.Json
