/-! Finite binary64 numbers as whole multiples of the smallest positive one,
`2⁻¹⁰⁷⁴`. Every question this library asks of a number (is it whole, what does
it leave on division, which decimals denote it) is then one about natural
numbers. Infinities and NaN have no number of steps; `steps` gives them a
meaningless one, and callers test for them first. -/
namespace Hyperscript.Binary64

/-- The smallest positive number fits this many times into one. -/
def stepsPerOne : Nat := Nat.pow 2 1074

def exponentField (x : Float) : Nat := x.toBits.toNat / Nat.pow 2 52 % 2048

def fractionField (x : Float) : Nat := x.toBits.toNat % Nat.pow 2 52

/-- The sign bit, also that of a zero. -/
def signBit (x : Float) : Bool := decide (Nat.pow 2 63 ≤ x.toBits.toNat)

def isFinite (x : Float) : Bool := decide (exponentField x ≠ 2047)

def isNaN (x : Float) : Bool := !isFinite x && decide (fractionField x ≠ 0)

def isInfinite (x : Float) : Bool := !isFinite x && decide (fractionField x = 0)

/-- The gap to the next larger magnitude is `2 ^ gapLog x` steps. -/
def gapLog (x : Float) : Nat := exponentField x - 1

/-- The magnitude of a finite number, in steps. -/
def steps (x : Float) : Nat :=
  if exponentField x = 0 then fractionField x
  else (Nat.pow 2 52 + fractionField x) * Nat.pow 2 (gapLog x)

def isZero (x : Float) : Bool := isFinite x && decide (steps x = 0)

/-- Strictly less than zero, so neither a negative zero nor NaN. -/
def isBelowZero (x : Float) : Bool := signBit x && !isZero x && !isNaN x

def isAboveZero (x : Float) : Bool := !signBit x && !isZero x && !isNaN x

/-- The number with the given sign and magnitude. Magnitudes that no binary64
number has lose their low bits; no caller passes one. -/
def ofSteps (negative : Bool) (magnitude : Nat) : Float :=
  let gap := magnitude.log2 - 52
  let bits := gap * Nat.pow 2 52 + magnitude / Nat.pow 2 gap
  Float.ofBits (UInt64.ofNat (bits + if negative then Nat.pow 2 63 else 0))

def isWhole (x : Float) : Bool := isFinite x && decide (steps x % stepsPerOne = 0)

/-- The natural number that `x` is, if it is one. Both zeros are. -/
def toNat? (x : Float) : Option Nat :=
  if isWhole x && !isBelowZero x then some (steps x / stepsPerOne) else none

/-- The truncated-division remainder: it has the sign of the dividend and is
exact. An infinite dividend or a zero divisor leaves no number; an infinite
divisor leaves the dividend. -/
def remainder (x y : Float) : Float :=
  if isNaN x || isNaN y || isInfinite x || isZero y then 0.0 / 0.0
  else if isInfinite y then x
  else ofSteps (signBit x) (steps x % steps y)

end Hyperscript.Binary64
