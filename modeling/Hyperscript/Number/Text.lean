import Hyperscript.Number.Shortest

/-! Numbers as the generated scripts spell them. Whole numbers below `10 ^ 21`
show all their digits, numbers from `10 ^ -6` up to there the shortest digits
that denote them, and all others the shortest digits with a signed exponent.
Both zeros are `0`. -/
namespace Hyperscript.Number

/-- From here on numbers take an exponent. -/
def exponentFrom : Float := 1e21

/-- Below the binary64 number nearest to `10 ^ -6` numbers take an exponent. -/
def exponentBelow : Float := 1e-6

/-- The magnitude of a finite nonzero number. -/
def magnitudeText (x : Float) : List Char :=
  let size := Binary64.steps x
  let large := Binary64.steps exponentFrom ≤ size
  let small := size < Binary64.steps exponentBelow
  if Binary64.isWhole x && !large then Nat.toDigits 10 (size / Binary64.stepsPerOne)
  else
    let shortest := Decimal.shortest .up x
    if large || small then
      let sign := if shortest.exponent < 0 then '-' else '+'
      shortest.significand ++ 'e' :: sign :: Nat.toDigits 10 shortest.exponent.natAbs
    else shortest.positional

def text (x : Float) : String :=
  if Binary64.isNaN x then "NaN"
  else if Binary64.isInfinite x then if Binary64.signBit x then "-Infinity" else "Infinity"
  else if Binary64.isZero x then "0"
  else String.ofList (if Binary64.signBit x then '-' :: magnitudeText x else magnitudeText x)

end Hyperscript.Number
