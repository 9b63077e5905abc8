import Hyperscript.Json.Basic
import Hyperscript.Text.Lines
import Hyperscript.Text.Quoted

/-! Taking typed data from JSON values: why a value is refused, the scalar
readers, and records. A record is written as an object, whose members are read
in document order, or as the array of its fields in declaration order. -/
namespace Hyperscript

/-- Why a value does not have the wanted shape. -/
inductive DecodeError where
  | wrongType (found wanted : String)
  | outOfRange (found : Int) (wanted : String)
  | missingField (name : String)
  | unknownField (name : String) (known : List String)
  | duplicateField (name : String)
  | wrongLength (length : Nat) (wanted : String)
  | notLiteral
  | unknownLevel (level : Int)
deriving DecidableEq

namespace DecodeError

def inBackticks (text : String) : String := "`" ++ text ++ "`"

def choice (known : List String) : String :=
  match known with
  | [only] => "expected " ++ inBackticks only
  | known => "expected one of " ++ Text.join ", " (known.map inBackticks)

def message : DecodeError → String
  | .wrongType found wanted => "invalid type: " ++ found ++ ", expected " ++ wanted
  | .outOfRange found wanted =>
    "invalid value: integer " ++ inBackticks (toString found) ++ ", expected " ++ wanted
  | .missingField name => "missing field " ++ inBackticks name
  | .unknownField name known => "unknown field " ++ inBackticks name ++ ", " ++ choice known
  | .duplicateField name => "duplicate field " ++ inBackticks name
  | .wrongLength length wanted =>
    "invalid length " ++ toString length ++ ", expected " ++ wanted
  | .notLiteral => "data did not match any variant of untagged enum LiteralValue"
  | .unknownLevel level => "optimization level must be 0, 1 or 2, got " ++ toString level

end DecodeError

namespace Json

/-- How a refusal names the value it met. -/
def describe : Json → String
  | .null => "null"
  | .bool value => "boolean `" ++ (if value then "true" else "false") ++ "`"
  | .number (.integer value) => "integer `" ++ toString value ++ "`"
  | .number (.float value) => "floating point `" ++ (Number.float value).text ++ "`"
  | .string value => "string " ++ Text.shown value
  | .array _ => "sequence"
  | .object _ => "map"

def refuse (value : Json) (wanted : String) : Except DecodeError α :=
  .error (.wrongType value.describe wanted)

def toText : Json → Except DecodeError String
  | .string value => .ok value
  | value => value.refuse "a string"

def toFlag : Json → Except DecodeError Bool
  | .bool value => .ok value
  | value => value.refuse "a boolean"

/-- Integers count as numbers here. -/
def toNumber : Json → Except DecodeError Float
  | .number value => .ok value.toFloat
  | value => value.refuse "f64"

def toElements : Json → Except DecodeError (List Json)
  | .array elements => .ok elements
  | value => value.refuse "a sequence"

def toTexts (value : Json) : Except DecodeError (List String) := do
  (← value.toElements).mapM toText

/-- An absent value may be written as `null`. -/
def toOptional (decode : Json → Except DecodeError α) : Json → Except DecodeError (Option α)
  | .null => .ok none
  | value => (decode value).map some

/-- A number of elements in words of a refusal. -/
def countElements (n : Nat) : String := if n = 1 then "1 element" else toString n ++ " elements"

/-- The refusal of a record written as an array without its required fields. -/
def tooShort (length : Nat) (name : String) (fields : Nat) : DecodeError :=
  .wrongLength length ("struct " ++ name ++ " with " ++ countElements fields)

/-- A field of a record `ρ`: its name and how its value goes into the record. -/
structure Field (ρ : Type) where
  name : String
  store : Json → ρ → Except DecodeError ρ

/-- A kind of record. The fields come in declaration order, the required ones
first. A closed record refuses members it does not know. -/
structure Record (ρ : Type) where
  name : String
  blank : ρ
  fields : List (Field ρ)
  required : Nat := 0
  closed : Bool := false

namespace Record

variable {ρ : Type}

def names (record : Record ρ) : List String := record.fields.map (·.name)

def storeMember (record : Record ρ) (read : ρ) (member : String × Json) : Except DecodeError ρ :=
  match record.fields.find? (·.name == member.1) with
  | some field => field.store member.2 read
  | none => if record.closed then .error (.unknownField member.1 record.names) else .ok read

/-- The first required field that is not among the members. -/
def absent? (record : Record ρ) (members : List (String × Json)) : Option String :=
  (record.names.take record.required).find? fun name => !(members.any (·.1 == name))

def storeElements (total : Nat) : List (Field ρ) → List Json → ρ → Except DecodeError ρ
  | _, [], read => .ok read
  | [], _ :: _, _ => .error (.wrongLength total "fewer elements in array")
  | field :: fields, element :: elements, read => do
    storeElements total fields elements (← field.store element read)

def decode (record : Record ρ) : Json → Except DecodeError ρ
  | .object members => do
    let read ← members.foldlM record.storeMember record.blank
    match record.absent? members with
    | some name => .error (.missingField name)
    | none => .ok read
  | .array elements => do
    let read ← storeElements elements.length record.fields elements record.blank
    if elements.length < record.required then
      .error (tooShort elements.length record.name record.fields.length)
    else .ok read
  | value => value.refuse ("struct " ++ record.name)

end Record
end Json
end Hyperscript
