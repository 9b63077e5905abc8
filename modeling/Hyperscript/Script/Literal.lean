import Hyperscript.Number.Text

/-! Literal values and what scripts make of them: truth, text and strict
equality. -/
namespace Hyperscript

inductive Literal where
  | null
  | bool (value : Bool)
  | number (value : Float)
  | string (value : String)
deriving DecidableEq

namespace Literal

def number? : Literal → Option Float
  | .number value => some value
  | _ => none

/-- Zero, NaN, `null` and the empty string count as false. -/
def isTruthy : Literal → Bool
  | .null => false
  | .bool value => value
  | .number value => !Binary64.isZero value && !Binary64.isNaN value
  | .string value => value != ""

def text : Literal → String
  | .null => "null"
  | .bool true => "true"
  | .bool false => "false"
  | .number value => Number.text value
  | .string value => value

/-- Same type and same value. NaN differs from itself and the zeros are equal. -/
def strictEquals : Literal → Literal → Bool
  | .null, .null => true
  | .bool a, .bool b => a == b
  | .number a, .number b => a == b
  | .string a, .string b => a == b
  | _, _ => false

end Literal
end Hyperscript
