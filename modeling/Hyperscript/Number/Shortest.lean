import Hyperscript.Number.Binary64

/-! The fewest decimal digits that denote a binary64 number. A decimal denotes
`x` when it lies among the reals nearest to `x`; the two ends of that range
belong to it exactly when the significand of `x` is even. For one digit, two
digits and so on, only the two grid points around `x` can be nearest, so the
search tries these and takes the nearer one that denotes `x`. It ends at the
latest at the exact expansion, which denotes `x` by itself. -/
namespace Hyperscript

/-- The decimal `0.d₁d₂… · 10 ^ point`. -/
structure Decimal where
  digits : List Char
  point : Int
deriving DecidableEq

namespace Decimal

/-- The decimal `coefficient · 10 ^ exponent`, without trailing zero digits. -/
def ofCoefficient (coefficient : Nat) (exponent : Int) : Decimal :=
  let written := Nat.toDigits 10 coefficient
  { digits := (written.reverse.dropWhile (· == '0')).reverse
    point := written.length + exponent }

/-- Which of two equally near decimals is taken. -/
inductive Tie where
  | up
  | even

/-- The reals that round to one number, in quarters of the smallest step. The
ends are half a gap away, or a quarter below where the gap narrows. -/
structure Basin where
  low : Nat
  center : Nat
  high : Nat
  closed : Bool

def Basin.of (x : Float) : Basin :=
  let gap := Nat.pow 2 (Binary64.gapLog x)
  let narrows := Binary64.fractionField x = 0 ∧ 1 < Binary64.exponentField x
  { low := 4 * Binary64.steps x - if narrows then gap else 2 * gap
    center := 4 * Binary64.steps x
    high := 4 * Binary64.steps x + 2 * gap
    closed := Binary64.fractionField x % 2 = 0 }

/-- Grid points `coefficient · 10 ^ exponent` and the basin, on one scale. -/
def gridUnit (exponent : Int) : Nat := 4 * Binary64.stepsPerOne * Nat.pow 10 exponent.toNat

def gridZoom (exponent : Int) : Nat := Nat.pow 10 (-exponent).toNat

/-- The decimal `coefficient · 10 ^ exponent` lies in the basin. -/
def Basin.contains (basin : Basin) (coefficient : Nat) (exponent : Int) : Bool :=
  let here := coefficient * gridUnit exponent
  let zoom := gridZoom exponent
  if basin.closed then basin.low * zoom ≤ here && here ≤ basin.high * zoom
  else basin.low * zoom < here && here < basin.high * zoom

/-- The nearer of the two grid points around the center, among those in the
basin. -/
def Basin.nearest? (basin : Basin) (tie : Tie) (exponent : Int) : Option Nat :=
  let unit := gridUnit exponent
  let center := basin.center * gridZoom exponent
  let below := center / unit
  let above := below + 1
  match basin.contains below exponent, basin.contains above exponent with
  | false, false => none
  | true, false => some below
  | false, true => some above
  | true, true =>
    let down := center - below * unit
    let up := above * unit - center
    if down < up then some below
    else if up < down then some above
    else match tie with
      | .up => some above
      | .even => some (if below % 2 = 0 then below else above)

/-- The power of ten just above the center: the center has its first digit at
`10 ^ (place - 1)`. -/
def Basin.place (basin : Basin) : Int :=
  let one := 4 * Binary64.stepsPerOne
  if one ≤ basin.center then (Nat.toDigits 10 (basin.center / one)).length
  else 1 - ((Nat.toDigits 10 ((one - 1) / basin.center)).length : Int)

/-- Try grids of ever more digits, the coarsest of them `10 ^ exponent`; when
`fuel` runs out the exact expansion is taken. -/
def Basin.search (basin : Basin) (tie : Tie) : (fuel : Nat) → (exponent : Int) → Decimal
  | 0, _ => ofCoefficient (basin.center / 4 * Nat.pow 5 1074) (-1074)
  | fuel + 1, exponent =>
    match basin.nearest? tie exponent with
    | some coefficient => ofCoefficient coefficient exponent
    | none => basin.search tie fuel (exponent - 1)

/-- The shortest decimal that denotes the finite nonzero number `x`, and the
nearest to `x` of these. The sign is dropped. -/
def shortest (tie : Tie) (x : Float) : Decimal :=
  let basin := Basin.of x
  basin.search tie (basin.place + 1074).toNat (basin.place - 1)

/-- Digits with a point among them and no exponent. -/
def positional (d : Decimal) : List Char :=
  if d.point ≤ 0 then '0' :: '.' :: List.replicate (-d.point).toNat '0' ++ d.digits
  else
    let whole := d.point.toNat
    if d.digits.length ≤ whole then d.digits ++ List.replicate (whole - d.digits.length) '0'
    else d.digits.take whole ++ '.' :: d.digits.drop whole

/-- The significand of scientific notation: one digit before the point. -/
def significand (d : Decimal) : List Char :=
  match d.digits with
  | first :: second :: rest => first :: '.' :: second :: rest
  | digits => digits

def exponent (d : Decimal) : Int := d.point - 1

end Decimal
end Hyperscript
