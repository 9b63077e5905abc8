import Hyperscript.Proofs.Number.Shapes
import Hyperscript.Proofs.Number.Values

/-! Rounding to binary64 numbers. Of the rationals in the basin of a number, that number is the
nearest, and where another is equally near its last binary digit is zero; and to no rational
are two numbers nearest in this sense. -/
namespace Hyperscript
namespace Binary64

variable {x y : Float}

/-! ## Neighbours -/

theorem gapLog_le_gapLog (atMost : steps x ≤ steps y) : gapLog x ≤ gapLog y := by
  rw [← log2_steps_sub x, ← log2_steps_sub y, Nat.log2_eq_log_two, Nat.log2_eq_log_two]
  exact Nat.sub_le_sub_right (Nat.log_mono_right atMost) 52

theorem pow_gapLog_dvd_steps {gap : Nat} (atMost : gap ≤ gapLog x) : 2 ^ gap ∣ steps x :=
  (Nat.pow_dvd_pow 2 atMost).trans (gap_dvd_steps x)

/-- Up to the next larger magnitude there is at least one gap. -/
theorem steps_add_gap_le (less : steps x < steps y) : steps x + 2 ^ gapLog x ≤ steps y := by
  obtain ⟨a, inX⟩ := pow_gapLog_dvd_steps (Nat.le_refl (gapLog x))
  obtain ⟨b, inY⟩ := pow_gapLog_dvd_steps (gapLog_le_gapLog less.le)
  rw [inX, inY] at less ⊢
  rw [← Nat.mul_succ]
  exact Nat.mul_le_mul_left _ (Nat.lt_of_mul_lt_mul_left less)

/-- Half of the gap below a number, in quarters of a step: where the gap narrows it is half of
what it is above. -/
def reachBelow (x : Float) : Nat :=
  if fractionField x = 0 ∧ 1 < exponentField x then 2 ^ gapLog x else 2 * 2 ^ gapLog x

theorem steps_add_reachBelow_le (less : steps x < steps y) :
    4 * steps x + 2 * reachBelow y ≤ 4 * steps y := by
  obtain same | narrower := (gapLog_le_gapLog less.le).eq_or_lt
  · have apart := steps_add_gap_le less
    rw [same] at apart
    unfold reachBelow
    split <;> omega
  · -- The smaller number has a smaller gap, so the larger one is normal.
    obtain ⟨half, isHalf⟩ : ∃ half, gapLog y = half + 1 := Nat.exists_eq_add_one.mpr (by omega)
    have normal : 1 < exponentField y := by unfold gapLog at isHalf; omega
    have digits : significand y = 2 ^ 52 + fractionField y := if_neg (by omega)
    have small := significand_lt x
    have below : steps x ≤ (2 ^ 53 - 1) * 2 ^ half := by
      rw [steps_eq]
      exact Nat.mul_le_mul (by omega) (Nat.pow_le_pow_right (by decide) (by omega))
    rw [steps_eq y, digits, reachBelow, isHalf, pow_succ]
    generalize 2 ^ half = unit at below
    by_cases narrows : fractionField y = 0
    · rw [if_pos ⟨narrows, normal⟩, narrows]
      omega
    · rw [if_neg (fun both => narrows both.1)]
      have more : (2 ^ 52 + 1) * (unit * 2) ≤ (2 ^ 52 + fractionField y) * (unit * 2) :=
        Nat.mul_le_mul_right _ (by omega)
      omega

/-- Between two magnitudes whose last digits are zero there is another. -/
theorem exists_between (finite : isFinite x = true) (evenX : significand x % 2 = 0)
    (evenY : significand y % 2 = 0) (less : steps x < steps y) :
    ∃ magnitude, IsMagnitude magnitude ∧ steps x < magnitude ∧ magnitude < steps y := by
  have small := significand_lt x
  have unit : 0 < 2 ^ gapLog x := Nat.two_pow_pos _
  have next : steps x + 2 ^ gapLog x = (significand x + 1) * 2 ^ gapLog x := by
    rw [steps_eq, Nat.succ_mul]
  have fits : IsMagnitude (steps x + 2 ^ gapLog x) := by
    have inRange : exponentField x ≠ 2047 := of_decide_eq_true finite
    have bound := exponentField_lt x
    exact ⟨significand x + 1, gapLog x, by omega, by unfold gapLog; omega, next⟩
  refine ⟨steps x + 2 ^ gapLog x, fits, by omega, (steps_add_gap_le less).lt_of_ne ?_⟩
  intro same
  -- The next magnitude would have an odd number of gaps, and an even one.
  obtain ⟨more, isMore⟩ := Nat.exists_eq_add_of_le (gapLog_le_gapLog less.le)
  rw [next, steps_eq y, isMore, pow_add, mul_left_comm, mul_comm] at same
  have odd : significand x + 1 = significand y * 2 ^ more := Nat.eq_of_mul_eq_mul_left unit same
  have even : significand y * 2 ^ more % 2 = 0 := by rw [Nat.mul_mod, evenY, Nat.zero_mul]
  omega

/-! ## Nearest numbers -/

/-- The finite number nearest to a rational; where another is equally near, the one whose last
binary digit is zero. From the middle between the largest number and `2 ^ 1024` on, rationals
have none. -/
structure IsNearest (q : ℚ) (x : Float) : Prop where
  finite : isFinite x = true
  inRange : |q| < 2 ^ 1024 - 2 ^ 970
  nearest : ∀ y, isFinite y = true → |q - value x| ≤ |q - value y|
  even : ∀ y, isFinite y = true → value y ≠ value x → |q - value y| = |q - value x| →
    significand x % 2 = 0

theorem div_stepsPerOne_lt_iff {n m : Nat} :
    (n / stepsPerOne : ℚ) < m / stepsPerOne ↔ n < m := by
  rw [div_lt_div_iff_of_pos_right (Nat.cast_pos.mpr stepsPerOne_pos), Nat.cast_lt]

/-- The value of a magnitude with a sign. -/
def signed (negative : Bool) (magnitude : ℚ) : ℚ := if negative then -magnitude else magnitude

theorem abs_signed_sub (negative : Bool) (q r : ℚ) :
    |signed negative q - r| = |q - signed negative r| := by
  cases negative with
  | false => rfl
  | true =>
    change |-q - r| = |q - -r|
    rw [← abs_neg, neg_sub', neg_neg]

theorem signed_signed (negative other : Bool) (q : ℚ) :
    signed negative (signed other q) = signed (negative ^^ other) q := by
  cases negative <;> cases other <;> simp [signed]

theorem mul_signed (negative : Bool) (factor q : ℚ) :
    factor * signed negative q = signed negative (factor * q) := by
  cases negative with
  | false => rfl
  | true => exact mul_neg factor q

theorem signed_injective (negative : Bool) : Function.Injective (signed negative) := by
  intro q r same
  have back := congrArg (signed negative) same
  rwa [signed_signed, signed_signed, Bool.xor_self] at back

theorem value_eq_signed (finite : isFinite x = true) :
    value x = signed (signBit x) (steps x / stepsPerOne) := by
  rw [value_eq finite, sign, signed]
  cases signBit x with
  | true =>
    change ((-(steps x : Int) : Int) : ℚ) / stepsPerOne = -(steps x / stepsPerOne)
    rw [Int.cast_neg, Int.cast_natCast, neg_div]
  | false => rfl

theorem IsMagnitude.exists_value {magnitude : Nat} (fits : IsMagnitude magnitude)
    (negative : Bool) :
    ∃ x, isFinite x = true ∧ value x = signed negative (magnitude / stepsPerOne) := by
  obtain ⟨x, finite, rfl, rfl⟩ := fits.exists_float negative
  exact ⟨x, finite, value_eq_signed finite⟩

theorem isMagnitude_zero : IsMagnitude 0 := ⟨0, 0, by decide, by decide, rfl⟩

theorem exists_value_eq_zero : ∃ x, isFinite x = true ∧ value x = 0 := by
  obtain ⟨x, finite, isValue⟩ := isMagnitude_zero.exists_value false
  rw [signed, if_neg Bool.false_ne_true, Nat.cast_zero, zero_div] at isValue
  exact ⟨x, finite, isValue⟩

/-- Between two magnitudes whose last digits are zero there is that of a number of either sign. -/
theorem exists_magnitude_between (finite : isFinite x = true) (evenX : significand x % 2 = 0)
    (evenY : significand y % 2 = 0) (less : (steps x / stepsPerOne : ℚ) < steps y / stepsPerOne)
    (negative : Bool) :
    ∃ z magnitude, isFinite z = true ∧ value z = signed negative magnitude ∧
      (steps x / stepsPerOne : ℚ) < magnitude ∧ magnitude < steps y / stepsPerOne := by
  obtain ⟨magnitude, fits, lower, upper⟩ :=
    exists_between finite evenX evenY (div_stepsPerOne_lt_iff.mp less)
  obtain ⟨z, finiteZ, isValue⟩ := fits.exists_value negative
  exact ⟨z, _, finiteZ, isValue, div_stepsPerOne_lt_iff.mpr lower,
    div_stepsPerOne_lt_iff.mpr upper⟩

/-- Between two numbers whose last digits are zero there is another. -/
theorem exists_value_between (finiteX : isFinite x = true) (finiteY : isFinite y = true)
    (evenX : significand x % 2 = 0) (evenY : significand y % 2 = 0) (less : value x < value y) :
    ∃ z, isFinite z = true ∧ value x < value z ∧ value z < value y := by
  have nonneg (n : Nat) : (0 : ℚ) ≤ n / stepsPerOne :=
    div_nonneg (Nat.cast_nonneg n) (Nat.cast_nonneg stepsPerOne)
  have above (less : (steps x / stepsPerOne : ℚ) < steps y / stepsPerOne) :
      ∃ z, isFinite z = true ∧ (steps x / stepsPerOne : ℚ) < value z ∧
        value z < steps y / stepsPerOne := by
    obtain ⟨z, _, finite, isValue, between⟩ :=
      exists_magnitude_between finiteX evenX evenY less false
    exact ⟨z, finite, isValue ▸ between⟩
  have below (less : (steps y / stepsPerOne : ℚ) < steps x / stepsPerOne) :
      ∃ z, isFinite z = true ∧ -(steps x / stepsPerOne : ℚ) < value z ∧
        value z < -(steps y / stepsPerOne) := by
    obtain ⟨z, _, finite, isValue, lower, upper⟩ :=
      exists_magnitude_between finiteY evenY evenX less true
    exact ⟨z, finite, isValue ▸ neg_lt_neg upper, isValue ▸ neg_lt_neg lower⟩
  rw [value_eq_signed finiteX, value_eq_signed finiteY] at less ⊢
  generalize signBit x = negativeX at less ⊢
  generalize signBit y = negativeY at less ⊢
  have nonnegX := nonneg (steps x)
  have nonnegY := nonneg (steps y)
  match negativeX, negativeY with
  | false, false => exact above less
  | true, true => exact below (neg_lt_neg_iff.mp less)
  | false, true => exact absurd less (not_lt.mpr ((neg_nonpos.mpr nonnegY).trans nonnegX))
  | true, false =>
    -- Zero is between them, unless it is one of them.
    change -(steps x / stepsPerOne : ℚ) < steps y / stepsPerOne at less
    change ∃ z, isFinite z = true ∧ -(steps x / stepsPerOne : ℚ) < value z ∧
      value z < steps y / stepsPerOne
    obtain noneX | someX := nonnegX.eq_or_lt
    · rw [← noneX, neg_zero] at less ⊢
      rw [noneX] at less ⊢
      exact above less
    obtain noneY | someY := nonnegY.eq_or_lt
    · rw [← noneY, ← neg_zero, noneY] at less ⊢
      exact below (neg_lt_neg_iff.mp less)
    · obtain ⟨z, finite, zero⟩ := exists_value_eq_zero
      exact ⟨z, finite, zero ▸ neg_neg_of_pos someX, zero ▸ someY⟩

theorem IsNearest.value_eq {q : ℚ} (nearX : IsNearest q x) (nearY : IsNearest q y) :
    value x = value y := by
  by_contra different
  have same : |q - value x| = |q - value y| :=
    le_antisymm (nearX.nearest y nearY.finite) (nearY.nearest x nearX.finite)
  have evenX := nearX.even y nearY.finite (Ne.symm different) same.symm
  have evenY := nearY.even x nearX.finite different same
  wlog less : value x < value y generalizing x y
  · exact this nearY nearX (Ne.symm different) same.symm evenY evenX
      (lt_of_le_of_ne (not_lt.mp less) (Ne.symm different))
  obtain ⟨z, finite, above, below⟩ :=
    exists_value_between nearX.finite nearY.finite evenX evenY less
  have farther := nearX.nearest z finite
  -- The rational lies in the middle, and the number between is nearer to it.
  grind

end Binary64

/-! ## Basins -/

namespace Decimal.Basin

open Binary64

variable {x : Float} {r : ℚ}

/-- A rational, in quarters of a step, lies in the basin. -/
def Holds (basin : Basin) (r : ℚ) : Prop :=
  basin.low ≤ r ∧ r ≤ basin.high ∧ (basin.closed = false → basin.low < r ∧ r < basin.high)

theorem gridZoom_pos (exponent : Int) : 0 < gridZoom exponent := Nat.pow_pos (by decide)

theorem grid_eq (coefficient : Nat) (exponent : Int) :
    4 * (stepsPerOne : ℚ) * (coefficient * 10 ^ exponent) =
      (coefficient * gridUnit exponent : Nat) / (gridZoom exponent : Nat) := by
  have power : (10 : ℚ) ^ exponent = 10 ^ exponent.toNat / 10 ^ (-exponent).toNat := by
    rw [← zpow_natCast, ← zpow_natCast, ← zpow_sub₀ (by decide)]
    congr 1
    omega
  rw [power, gridUnit, gridZoom, Nat.pow_eq, Nat.pow_eq]
  generalize stepsPerOne = one
  push_cast
  ring

theorem contains_iff (basin : Basin) (coefficient : Nat) (exponent : Int) :
    basin.contains coefficient exponent = true ↔
      basin.Holds (4 * stepsPerOne * (coefficient * 10 ^ exponent)) := by
  have zoom : (0 : ℚ) < (gridZoom exponent : Nat) := Nat.cast_pos.mpr (gridZoom_pos exponent)
  rw [grid_eq, Holds, le_div_iff₀ zoom, div_le_iff₀ zoom, lt_div_iff₀ zoom, div_lt_iff₀ zoom]
  norm_cast
  unfold contains
  cases basin.closed with
  | true => simp
  | false =>
    simp only [Bool.false_eq_true, if_false, Bool.and_eq_true, decide_eq_true_eq, true_implies]
    omega

theorem reachBelow_pos (x : Float) : 0 < reachBelow x := by
  unfold reachBelow
  split <;> positivity

theorem reachBelow_le (x : Float) : reachBelow x ≤ 2 * 2 ^ gapLog x := by
  unfold reachBelow
  split <;> omega

theorem low_of (nonzero : steps x ≠ 0) : (of x).low + reachBelow x = 4 * steps x := by
  have gap : 2 ^ gapLog x ≤ steps x :=
    Nat.le_of_dvd (Nat.pos_of_ne_zero nonzero) (gap_dvd_steps x)
  have reach := reachBelow_le x
  change 4 * steps x - reachBelow x + reachBelow x = 4 * steps x
  omega

theorem high_of (x : Float) : (of x).high = 4 * steps x + 2 * 2 ^ gapLog x := rfl

theorem closed_of (x : Float) : (of x).closed = decide (fractionField x % 2 = 0) := rfl

/-- What lies in the basin of a number is at least as near to it as to any other magnitude, and
nearer unless the last digit of the number is zero. -/
theorem Holds.nearer (inside : (of x).Holds r) (nonzero : steps x ≠ 0) (y : Float) :
    |r - 4 * steps x| ≤ |r - 4 * steps y| ∧
      (steps y ≠ steps x → |r - 4 * steps y| = |r - 4 * steps x| → fractionField x % 2 = 0) := by
  obtain ⟨lower, upper, inner⟩ := inside
  have low : ((of x).low : ℚ) + reachBelow x = 4 * steps x := by exact_mod_cast low_of nonzero
  have high : ((of x).high : ℚ) = 4 * steps x + 2 * 2 ^ gapLog x := by exact_mod_cast high_of x
  have gap : (0 : ℚ) < 2 ^ gapLog x := by positivity
  have reach : (0 : ℚ) < reachBelow x := Nat.cast_pos.mpr (reachBelow_pos x)
  rw [closed_of, decide_eq_false_iff_not] at inner
  obtain less | same | more := Nat.lt_trichotomy (steps x) (steps y)
  · have apart : (steps x + 2 ^ gapLog x : ℚ) ≤ steps y := by
      exact_mod_cast steps_add_gap_le less
    grind
  · rw [same]
    exact ⟨le_refl _, fun different => absurd rfl different⟩
  · have apart : (4 * steps y + 2 * reachBelow x : ℚ) ≤ 4 * steps x := by
      exact_mod_cast steps_add_reachBelow_le more
    grind

/-- The same for magnitudes of either sign. -/
theorem Holds.nearer_signed (inside : (of x).Holds r) (nonzero : steps x ≠ 0) (positive : 0 < r)
    (negative : Bool) (y : Float) :
    |r - 4 * steps x| ≤ |r - signed negative (4 * steps y)| ∧
      (signed negative (4 * steps y) ≠ (4 * steps x : ℚ) →
        |r - signed negative (4 * steps y)| = |r - 4 * steps x| → fractionField x % 2 = 0) := by
  cases negative with
  | false =>
    obtain ⟨atLeast, even⟩ := inside.nearer nonzero y
    refine ⟨atLeast, fun different => even ?_⟩
    rintro same
    exact different (by rw [signed, if_neg Bool.false_ne_true, same])
  | true =>
    -- A number of the other sign is no nearer than zero.
    obtain ⟨zero, _, noSteps, _⟩ := isMagnitude_zero.exists_float false
    obtain ⟨atLeast, even⟩ := inside.nearer nonzero zero
    rw [noSteps, Nat.cast_zero, mul_zero, sub_zero, abs_of_pos positive] at atLeast even
    have beyond : |r - signed true (4 * steps y)| = r + 4 * steps y := by
      rw [signed, if_pos rfl, sub_neg_eq_add, abs_of_pos (by positivity)]
    have nonneg : (0 : ℚ) ≤ steps y := Nat.cast_nonneg _
    rw [beyond]
    refine ⟨by linarith, fun _ same => even nonzero.symm ?_⟩
    linarith

end Decimal.Basin

namespace Binary64

open Decimal

variable {x : Float} {q : ℚ}

theorem significand_mod_two (x : Float) : significand x % 2 = fractionField x % 2 := by
  unfold significand
  split <;> omega

theorem cast_stepsPerOne : (stepsPerOne : ℚ) = 2 ^ 1074 := by
  rw [← two_pow_log2_stepsPerOne, log2_stepsPerOne, Nat.cast_pow, Nat.cast_two]

/-- From here on, in quarters of a step, magnitudes round to infinity. -/
theorem overflow_eq : (4 * stepsPerOne * (2 ^ 1024 - 2 ^ 970) : ℚ) = (2 ^ 55 - 2) * 2 ^ 2045 := by
  have next : (2 : ℚ) ^ 1024 = 2 ^ 54 * 2 ^ 970 := pow_add 2 54 970
  have product : (2 : ℚ) ^ 2045 = 2 * (2 ^ 1074 * 2 ^ 970) := by
    rw [← pow_add, ← pow_succ']
  rw [cast_stepsPerOne, next, product]
  generalize (2 : ℚ) ^ 1074 = a
  generalize (2 : ℚ) ^ 970 = b
  ring

/-- Basins end below the overflow. -/
theorem lt_overflow {r : ℚ} (finite : isFinite x = true) (inside : (Basin.of x).Holds r) :
    r < (2 ^ 55 - 2) * 2 ^ 2045 := by
  obtain ⟨_, upper, inner⟩ := inside
  have inRange : exponentField x ≠ 2047 := of_decide_eq_true finite
  have bound := exponentField_lt x
  have small := significand_lt x
  have high : ((Basin.of x).high : ℚ) = (4 * significand x + 2 : Nat) * 2 ^ gapLog x := by
    rw [Basin.high_of, steps_eq]
    push_cast
    ring
  have gap : (2 : ℚ) ^ gapLog x ≤ 2 ^ 2045 :=
    pow_le_pow_right₀ (by norm_num) (by unfold gapLog; omega)
  have unit : (0 : ℚ) < 2 ^ gapLog x := by positivity
  rw [Basin.closed_of, decide_eq_false_iff_not, ← significand_mod_two] at inner
  generalize (2 : ℚ) ^ 2045 = largest at gap ⊢
  have within : r < (2 ^ 55 - 2) * 2 ^ gapLog x := by
    by_cases even : significand x % 2 = 0
    · have digits : 4 * significand x + 2 + 2 < 2 ^ 55 := by omega
      have cast : ((4 * significand x + 2 : Nat) : ℚ) + 2 < 2 ^ 55 := by exact_mod_cast digits
      exact (high ▸ upper).trans_lt (mul_lt_mul_of_pos_right (lt_sub_iff_add_lt.mpr cast) unit)
    · have digits : 4 * significand x + 2 + 2 ≤ 2 ^ 55 := by omega
      have cast : ((4 * significand x + 2 : Nat) : ℚ) + 2 ≤ 2 ^ 55 := by exact_mod_cast digits
      exact (high ▸ (inner even).2).trans_le
        (mul_le_mul_of_nonneg_right (le_sub_iff_add_le.mpr cast) unit.le)
  exact within.trans_le (mul_le_mul_of_nonneg_left gap (by norm_num))

theorem quarters_pos : (0 : ℚ) < 4 * stepsPerOne :=
  mul_pos (by norm_num) (Nat.cast_pos.mpr stepsPerOne_pos)

theorem quarters_mul_value {y : Float} (finite : isFinite y = true) (negative : Bool) :
    4 * stepsPerOne * signed negative (value y) =
      signed (negative ^^ signBit y) (4 * steps y) := by
  rw [value_eq_signed finite, signed_signed, mul_signed, mul_assoc,
    mul_div_cancel₀ _ stepsPerOne_ne_zero]

/-- A number is nearest to everything in its basin, with its sign. -/
theorem isNearest_of_holds (finite : isFinite x = true) (nonzero : steps x ≠ 0) (positive : 0 < q)
    (inside : (Basin.of x).Holds (4 * stepsPerOne * q)) : IsNearest (signed (signBit x) q) x := by
  -- Distances in quarters of a step, with the sign of the number taken away.
  have distance {y : Float} (finite : isFinite y = true) :
      4 * stepsPerOne * |signed (signBit x) q - value y| =
        |4 * stepsPerOne * q - signed (signBit x ^^ signBit y) (4 * steps y)| := by
    rw [abs_signed_sub, ← quarters_mul_value finite, ← mul_sub, abs_mul,
      abs_of_pos quarters_pos]
  have ownValue : 4 * stepsPerOne * signed (signBit x) (value x) = 4 * steps x := by
    rw [quarters_mul_value finite, Bool.xor_self, signed, if_neg Bool.false_ne_true]
  have own : 4 * stepsPerOne * |signed (signBit x) q - value x| =
      |4 * stepsPerOne * q - 4 * steps x| := by
    rw [distance finite, ← quarters_mul_value finite, ownValue]
  have near (negative : Bool) (y : Float) :=
    inside.nearer_signed nonzero (mul_pos quarters_pos positive) negative y
  refine ⟨finite, ?_, ?_, ?_⟩
  · have magnitude : |signed (signBit x) q| = q := by
      unfold signed
      split
      · rw [abs_neg, abs_of_pos positive]
      · exact abs_of_pos positive
    rw [magnitude, ← mul_lt_mul_iff_right₀ quarters_pos, overflow_eq]
    exact lt_overflow finite inside
  · intro y finiteY
    rw [← mul_le_mul_iff_right₀ quarters_pos, own, distance finiteY]
    exact (near _ y).1
  · intro y finiteY different same
    rw [significand_mod_two]
    refine (near (signBit x ^^ signBit y) y).2 ?_ ?_
    · rw [← quarters_mul_value finiteY, ← ownValue]
      intro sameValue
      have cancelled := mul_left_cancel₀ quarters_pos.ne' sameValue
      exact different (signed_injective _ cancelled)
    · rw [← own, ← distance finiteY, same]

end Binary64
end Hyperscript
