import Hyperscript.Number.Shortest

/-! JSON values. Object members keep their order, and a number remembers whether
its text was that of an integer, because refusals name the two differently. -/
namespace Hyperscript

/-- A JSON number: an integer between `-2 ^ 63` and `2 ^ 64 - 1` written without
fraction and exponent, or any other number. -/
inductive Json.Number where
  | integer (value : Int)
  | float (value : Float)

inductive Json where
  | null
  | bool (value : Bool)
  | number (value : Json.Number)
  | string (value : String)
  | array (elements : List Json)
  | object (members : List (String × Json))

namespace Json

def floatOfInt (n : Int) : Float :=
  if n < 0 then -(Float.ofNat n.natAbs) else Float.ofNat n.natAbs

def Number.toFloat : Number → Float
  | .integer value => floatOfInt value
  | .float value => value

/-- A finite float as JSON text: the shortest digits that denote it, positional
from `10 ^ -5` to below `10 ^ 16` and then always with a fraction, elsewhere with
a signed exponent. -/
def floatDigits (x : Float) : List Char :=
  if Binary64.isZero x then ['0', '.', '0']
  else
    let decimal := Decimal.shortest .even x
    let length : Int := decimal.digits.length
    if length ≤ decimal.point && decimal.point ≤ 16 then decimal.positional ++ ['.', '0']
    else if -5 < decimal.point && decimal.point ≤ 16 then decimal.positional
    else
      let sign := if decimal.exponent < 0 then '-' else '+'
      decimal.significand ++ 'e' :: sign :: Nat.toDigits 10 decimal.exponent.natAbs

def Number.text : Number → String
  | .integer value => toString value
  | .float value =>
    if Binary64.isFinite value then
      String.ofList ((if Binary64.signBit value then ['-'] else []) ++ floatDigits value)
    else "null"

/-- The member of that name in an object; other values have none. -/
def member? (name : String) : Json → Option Json
  | .object members => members.lookup name
  | _ => none

/-- Add a member, or replace the value of the one with that name in its place. -/
def setMember (name : String) (value : Json) : List (String × Json) → List (String × Json)
  | [] => [(name, value)]
  | (key, old) :: members =>
    if key = name then (key, value) :: members else (key, old) :: setMember name value members

end Json
end Hyperscript
