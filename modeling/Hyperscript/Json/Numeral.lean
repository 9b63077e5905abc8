import Hyperscript.Json.Basic

/-! Numerals of JSON text and the numbers they denote. Digits are gathered into a
significand of 64 bits for as long as they fit; a digit of the whole part that no
longer fits only shifts the point, and one of the fraction is dropped. What is no
integer then is the significand, rounded, times or over one power of ten, rounded
once more, so it can lie a step beside the binary64 number nearest to the
numeral. -/
namespace Hyperscript.Json

/-- The parts of a numeral. A missing fraction or exponent part is `none`. -/
structure Numeral where
  negative : Bool
  whole : List Char
  fraction : Option (List Char)
  exponent : Option Int

namespace Numeral

def digitValue (digit : Char) : Nat := digit.toNat - '0'.toNat

def digitsValue (digits : List Char) : Nat :=
  digits.foldl (fun value digit => value * 10 + digitValue digit) 0

/-- Significands stay below this. -/
def significandLimit : Nat := Nat.pow 2 64

/-- Append digits to a significand up to the first that does not fit; the digits
from there on are left over. -/
def gather (significand : Nat) : List Char → Nat × List Char
  | [] => (significand, [])
  | digit :: digits =>
    let longer := significand * 10 + digitValue digit
    if longer < significandLimit then gather longer digits else (significand, digit :: digits)

/-- The largest power of ten that is a finite binary64 number has this exponent. -/
def powerLimit : Nat := 308

def powerOfTen (exponent : Nat) : Float := Float.ofScientific 1 false exponent

/-- A positive number moved by that many decimal places, unless it becomes too
large. Below the reach of one division there are two, and below that nothing is
left. -/
def shift? (x : Float) (places : Int) : Option Float :=
  if powerLimit < places then none
  else if 0 ≤ places then
    let shifted := x * powerOfTen places.natAbs
    if Binary64.isInfinite shifted then none else some shifted
  else if -powerLimit ≤ places then some (x / powerOfTen places.natAbs)
  else if -(2 * powerLimit) ≤ places then
    some (x / powerOfTen powerLimit / powerOfTen (places.natAbs - powerLimit))
  else some 0.0

/-- `significand · 10 ^ exponent`, rounded as it is computed. Zero stays zero
whatever the exponent. -/
def scaled? (significand : Nat) (exponent : Int) : Option Float :=
  if significand = 0 then some 0.0 else shift? (Float.ofNat significand) exponent

def signed (negative : Bool) (x : Float) : Float := if negative then -x else x

/-- The number of a numeral, unless it is too large. Digits alone are an integer
if it fits, except a negative zero. -/
def value? (numeral : Numeral) : Option Number :=
  let (significand, left) := gather 0 numeral.whole
  match numeral.fraction, numeral.exponent with
  | none, none =>
    if !left.isEmpty then (scaled? significand left.length).map fun x =>
      .float (signed numeral.negative x)
    else if !numeral.negative then some (.integer significand)
    else if 0 < significand && significand ≤ Nat.pow 2 63 then some (.integer (-significand))
    else some (.float (-Float.ofNat significand))
  | fraction, exponent =>
    let fraction := fraction.getD []
    let (significand, dropped) := gather significand fraction
    let point : Int := left.length - (fraction.length - dropped.length : Nat)
    (scaled? significand (point + exponent.getD 0)).map fun x =>
      .float (signed numeral.negative x)

/-- A leading run of digits, at least one. -/
def digits? (text : List Char) : Option (List Char × List Char) :=
  match text.span Char.isDigit with
  | ([], _) => none
  | found => some found

/-- The whole part: digits without a leading zero, or one zero. -/
def wholePart? (text : List Char) : Option (List Char × List Char) :=
  match digits? text with
  | some ('0' :: _ :: _, _) => none
  | found => found

def fractionPart? : List Char → Option (Option (List Char) × List Char)
  | '.' :: rest => (digits? rest).map fun (digits, rest) => (some digits, rest)
  | rest => some (none, rest)

def signedDigits? : List Char → Option (Int × List Char)
  | '-' :: rest => (digits? rest).map fun (digits, rest) => (-(digitsValue digits : Int), rest)
  | '+' :: rest => (digits? rest).map fun (digits, rest) => ((digitsValue digits : Int), rest)
  | rest => (digits? rest).map fun (digits, rest) => ((digitsValue digits : Int), rest)

def exponentPart? : List Char → Option (Option Int × List Char)
  | 'e' :: rest | 'E' :: rest => (signedDigits? rest).map fun (value, rest) => (some value, rest)
  | rest => some (none, rest)

/-- The numeral that a text starts with, behind its sign, and the text after it. -/
def unsigned? (negative : Bool) (text : List Char) : Option (Numeral × List Char) := do
  let (whole, rest) ← wholePart? text
  let (fraction, rest) ← fractionPart? rest
  let (exponent, rest) ← exponentPart? rest
  return ({ negative, whole, fraction, exponent }, rest)

def first? : List Char → Option (Number × List Char)
  | '-' :: rest => value (unsigned? true rest)
  | text => value (unsigned? false text)
where
  value (found : Option (Numeral × List Char)) : Option (Number × List Char) :=
    found.bind fun (numeral, rest) => numeral.value?.map fun number => (number, rest)

end Numeral
end Hyperscript.Json
