import DomainColoring.Decimal.Layout
import DomainColoring.Json.Basic
import DomainColoring.Text.Quoted

/-!
# Decoding JSON values

A record is decoded from an object, by the names of its fields, or from an array, by their
order. Members are taken in the order of the text, and the first fault ends the decoding.
Members of other names are skipped.
-/

namespace DomainColoring

/-- Why a value cannot be decoded. -/
inductive DecodeError where
  /-- A value of another kind than expected. -/
  | wrongType (found : Json) (expected : String)
  /-- A number of the right kind outside the expected range. -/
  | outOfRange (found : Json) (expected : String)
  | tooShort (length : Nat) (expected : String)
  | missingField (name : String)
  | duplicateField (name : String)
  | unknownVariant (found : List Char) (variants : List String)
  /-- The decoded parts do not make up a value, for the reason given. -/
  | refused (reason : String)
  /-- The text is no JSON, or has more in it than the value. -/
  | malformed

namespace DecodeError

/-- What a value is called in a message. -/
def describe : Json → String
  | .null => "null"
  | .bool true => "boolean `true`"
  | .bool false => "boolean `false`"
  | .natural value => "integer `" ++ toString value.toNat ++ "`"
  | .negative magnitude => "integer `-" ++ toString magnitude.toNat ++ "`"
  | .real value => "floating point `" ++ Decimal.Layout.json.text value ++ "`"
  | .string text => "string " ++ String.ofList (Text.quoted text)
  | .array _ _ => "sequence"
  | .object _ _ => "map"
  | .broken _ => "syntax"

/-- Names between backquotes, separated by commas. -/
def listed (names : List String) : String :=
  String.intercalate ", " (names.map fun name => "`" ++ name ++ "`")

def message : DecodeError → String
  | wrongType found expected => "invalid type: " ++ describe found ++ ", expected " ++ expected
  | outOfRange found expected => "invalid value: " ++ describe found ++ ", expected " ++ expected
  | tooShort length expected => "invalid length " ++ toString length ++ ", expected " ++ expected
  | missingField name => "missing field `" ++ name ++ "`"
  | duplicateField name => "duplicate field `" ++ name ++ "`"
  | unknownVariant found variants =>
    "unknown variant `" ++ String.ofList found ++ "`, expected one of " ++ listed variants
  | refused reason => reason
  | malformed => "syntax"

end DecodeError

namespace Json

/-- The error for a value of the wrong kind; what is broken is an error in itself. -/
def mismatch {α : Type} (found : Json) (expected : String) : Except DecodeError α :=
  match found with
  | .broken _ => .error .malformed
  | found => .error (.wrongType found expected)

/-- A natural of at most `greatest`. -/
def decodeNatural (greatest : Nat) (expected : String) : Json → Except DecodeError UInt64
  | .natural value =>
    if value.toNat ≤ greatest then .ok value else .error (.outOfRange (.natural value) expected)
  | .negative magnitude => .error (.outOfRange (.negative magnitude) expected)
  | found => mismatch found expected

/-- A number of 64 bits that counts something. -/
def decodeCount : Json → Except DecodeError UInt64 :=
  decodeNatural (Nat.pow 2 64 - 1) "usize"

/-- A number, whole or not. -/
def decodeReal : Json → Except DecodeError Float
  | .natural value => .ok value.toFloat
  | .negative magnitude => .ok (-magnitude.toFloat)
  | .real value => .ok value
  | found => mismatch found "f64"

/-- A value or `null`. -/
def decodeOptional {α : Type} (decode : Json → Except DecodeError α) :
    Json → Except DecodeError (Option α)
  | .null => .ok none
  | value => (decode value).map some

/-- One of a list of names: a string, or the one name of an object that holds `null`. -/
def decodeVariant (variants : List String) : Json → Except DecodeError String
  | .string text => named text
  | .object ((.string name, value) :: rest) closed => do
    let variant ← named name
    match value with
    | .null => if rest.isEmpty && closed then return variant else throw .malformed
    | found => mismatch found "unit"
  | .object ((name, _) :: _) _ => mismatch name "variant identifier"
  | _ => .error .malformed
where
  named (text : List Char) : Except DecodeError String :=
    match variants.find? fun variant => variant.toList = text with
    | some variant => .ok variant
    | none => .error (.unknownVariant text variants)

/-- A field of a record under construction. -/
structure Field (α : Type) where
  name : String
  /-- Whether an object has to have the field. -/
  required : Bool
  /-- The record with the field set to a value. -/
  set : Json → α → Except DecodeError α

/-- How a record is decoded. -/
structure Record (α : Type) where
  /-- What the record is called in a message. -/
  expected : String
  /-- How many elements an array must have, as part of a message. -/
  elements : String
  fields : List (Field α)
  /-- The record before any field is set. -/
  start : α
  /-- Whether an array may end before all fields are set. -/
  mayEndEarly : Bool

namespace Record

variable {α : Type}

/-- Sets the fields to the items in order; `taken` counts the items before. -/
def setInOrder (r : Record α) (closed : Bool) :
    Nat → List (Field α) → List Json → α → Except DecodeError α
  | _, [], items, record => if items.isEmpty && closed then .ok record else .error .malformed
  | taken, field :: fields, item :: items, record => do
    r.setInOrder closed (taken + 1) fields items (← field.set item record)
  | taken, _ :: _, [], record =>
    if !closed then .error .malformed
    else if r.mayEndEarly then .ok record
    else .error (.tooShort taken (r.expected ++ r.elements))

/-- Sets the fields that members name; `seen` are the names before. -/
def setByName (r : Record α) :
    List String → List (Json × Json) → α → Except DecodeError (α × List String)
  | seen, [], record => .ok (record, seen)
  | seen, (.string name, value) :: rest, record =>
    match r.fields.find? fun field => field.name.toList = name with
    | none => if value.isPassable then r.setByName seen rest record else .error .malformed
    | some field =>
      if field.name ∈ seen then .error (.duplicateField field.name)
      else do r.setByName (field.name :: seen) rest (← field.set value record)
  | _, _ :: _, _ => .error .malformed

/-- The record that a value holds. -/
def decode (r : Record α) : Json → Except DecodeError α
  | .array items closed => r.setInOrder closed 0 r.fields items r.start
  | .object members closed => do
    let (record, seen) ← r.setByName [] members r.start
    if !closed then throw .malformed
    match r.fields.find? fun field => field.required && field.name ∉ seen with
    | some field => throw (.missingField field.name)
    | none => return record
  | found => mismatch found r.expected

end Record
end Json
end DomainColoring
