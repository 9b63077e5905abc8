import Hyperscript.Proofs.Number.Integers
import Mathlib

/-! What binary64 numbers stand for. The bits have three fields, and what they mean by them is
what the library reads: its kinds of numbers are those told apart here, a finite number is its
sign and a number of steps, and every magnitude that a significand of 53 digits and a gap give
is that of a number. -/
namespace Hyperscript.Binary64

open Float.Model Float.Model.UnpackedFloat

section Fields

variable (x : Float)

theorem exponentField_lt : exponentField x < 2048 := Nat.mod_lt _ (by decide)

theorem fractionField_lt : fractionField x < 2 ^ 52 := Nat.mod_lt _ (by decide)

theorem fractionField_eq :
    fractionField x = (@unpackMantissa .binary64 x.toModel.toBits.toBitVec).toNat := by
  simp [fractionField, unpackMantissa_def]
  rfl

theorem unpackExponent_eq_iff {field : BitVec 11} :
    @unpackExponent .binary64 x.toModel.toBits.toBitVec = field ↔
      exponentField x = field.toNat := by
  rw [exponentField_eq]
  exact BitVec.toNat_inj.symm

theorem unpackMantissa_eq_iff {field : BitVec 52} :
    @unpackMantissa .binary64 x.toModel.toBits.toBitVec = field ↔
      fractionField x = field.toNat := by
  rw [fractionField_eq]
  exact BitVec.toNat_inj.symm

def sign : Sign := if signBit x then .negative else .positive

theorem ofBitVec_unpackSign :
    Sign.ofBitVec (@unpackSign .binary64 x.toModel.toBits.toBitVec) = sign x := by
  have bit : @unpackSign .binary64 x.toModel.toBits.toBitVec = 0#1 ↔ signBit x = false := by
    have bound := x.toBits.toNat_lt
    rw [unpackSign_def, ← BitVec.toNat_inj, BitVec.extractLsb'_toNat, Nat.shiftRight_eq_div_pow]
    change x.toBits.toNat / 2 ^ 63 % 2 ^ 1 = 0 ↔ _
    simp only [signBit, Nat.pow_eq, decide_eq_false_iff_not]
    omega
  simp only [Sign.ofBitVec, bit, sign]
  cases signBit x <;> rfl

theorem toNat_toBits :
    x.toBits.toNat =
      exponentField x * 2 ^ 52 + fractionField x + if signBit x then 2 ^ 63 else 0 := by
  have bound := x.toBits.toNat_lt
  unfold exponentField fractionField signBit
  simp only [decide_eq_true_eq, Nat.pow_eq]
  split <;> omega

/-- The digits of a number, the hidden one included. -/
def significand : Nat :=
  if exponentField x = 0 then fractionField x else 2 ^ 52 + fractionField x

theorem significand_lt : significand x < 2 ^ 53 := by
  have small := fractionField_lt x
  unfold significand
  split <;> omega

theorem le_significand {x : Float} (normal : exponentField x ≠ 0) : 2 ^ 52 ≤ significand x := by
  rw [significand, if_neg normal]
  exact Nat.le_add_right _ _

theorem steps_eq : steps x = significand x * 2 ^ gapLog x := by
  unfold steps significand gapLog
  split
  next none => rw [none, Nat.zero_sub, Nat.pow_zero, Nat.mul_one]
  next => rfl

theorem log2_stepsPerOne : stepsPerOne.log2 = 1074 := by decide +kernel

theorem two_pow_log2_stepsPerOne : 2 ^ stepsPerOne.log2 = stepsPerOne := by decide +kernel

/-- What the library reads from the bits. -/
theorem unpack_eq :
    x.toModel.unpack =
      if exponentField x = 2047 then
        if fractionField x = 0 then .infinity (sign x) else .notANumber
      else if zero : significand x = 0 then .zero (sign x)
      else .finite (sign x) (significand x) (gapLog x - stepsPerOne.log2)
        (Nat.pos_of_ne_zero zero) := by
  have allOnes := @unpackExponent_eq_iff x (-1#11)
  have zeros := @unpackExponent_eq_iff x 0#11
  have whole := @unpackMantissa_eq_iff x 0#52
  unfold Float.Model.unpack UnpackedFloat.unpack
  dsimp only
  rw [ofBitVec_unpackSign]
  by_cases infinite : exponentField x = 2047
  · rw [if_pos (allOnes.mpr infinite), if_pos infinite]
    exact if_congr whole rfl rfl
  rw [if_neg (infinite ∘ allOnes.mp), if_neg infinite]
  by_cases subnormal : exponentField x = 0
  · have digits : significand x = fractionField x := if_pos subnormal
    have gap : gapLog x = 0 := by rw [gapLog, subnormal]
    rw [if_pos (zeros.mpr subnormal)]
    by_cases zero : fractionField x = 0
    · rw [dif_pos (whole.mpr zero), dif_pos (digits.trans zero)]
    · rw [dif_neg (zero ∘ whole.mp), dif_neg (zero ∘ digits.symm.trans)]
      refine UnpackedFloat.finite.congr_simp _ _ rfl _ _ ?_ _ _ ?_ _
      · rw [digits, fractionField_eq]
      · rw [gap, zeros.mpr subnormal, log2_stepsPerOne]
        rfl
  · have digits : significand x = 2 ^ 52 + fractionField x := if_neg subnormal
    rw [if_neg (subnormal ∘ zeros.mp), dif_neg (by omega)]
    refine UnpackedFloat.finite.congr_simp _ _ rfl _ _ ?_ _ _ ?_ _
    · rw [digits, fractionField_eq, BitVec.toNat_append,
        ← Nat.shiftLeft_add_eq_or_of_lt (BitVec.isLt _)]
      rfl
    · rw [gapLog, ← exponentField_eq, log2_stepsPerOne]
      change (exponentField x : Int) - (1023 + 52) = _
      omega

end Fields

section Kinds

variable (x : Float)

theorem isFinite_eq : isFinite x = x.isFinite := by
  change _ = x.toModel.unpack.isFinite
  rw [unpack_eq, isFinite]
  split
  next infinite => split <;> simp [infinite, UnpackedFloat.isFinite]
  next finite => split <;> simp [finite, UnpackedFloat.isFinite]

theorem isNaN_eq : isNaN x = x.isNaN := by
  change _ = x.toModel.unpack.isNaN
  rw [unpack_eq, isNaN, isFinite]
  split
  next infinite => split <;> simp_all [UnpackedFloat.isNaN]
  next finite => split <;> simp [finite, UnpackedFloat.isNaN]

theorem isInfinite_eq : isInfinite x = x.isInf := by
  change _ = x.toModel.unpack.isInf
  rw [unpack_eq, isInfinite, isFinite]
  split
  next infinite => split <;> simp_all [UnpackedFloat.isInf]
  next finite => split <;> simp [finite, UnpackedFloat.isInf]

end Kinds

section Steps

/-- The gap shows in the length of the magnitude. -/
theorem log2_steps_sub (x : Float) : (steps x).log2 - 52 = gapLog x := by
  have small := significand_lt x
  rw [steps_eq]
  by_cases subnormal : exponentField x = 0
  · have none : gapLog x = 0 := by rw [gapLog, subnormal]
    rw [none, pow_zero, mul_one]
    by_cases zero : significand x = 0
    · rw [zero, Nat.log2_zero]
    · have below : (significand x).log2 < 53 := (Nat.log2_lt zero).mpr small
      omega
  · have large := le_significand subnormal
    have nonzero : significand x * 2 ^ gapLog x ≠ 0 := by positivity
    have log : (significand x * 2 ^ gapLog x).log2 = 52 + gapLog x := by
      rw [Nat.log2_eq_iff nonzero, pow_add, add_right_comm, pow_add]
      exact ⟨Nat.mul_le_mul_right _ large, Nat.mul_lt_mul_of_pos_right small (Nat.two_pow_pos _)⟩
    omega

/-- A number is found again from its sign and its steps. -/
theorem ofSteps_steps (x : Float) : ofSteps (signBit x) (steps x) = x := by
  have digits : steps x / 2 ^ gapLog x = significand x := by
    rw [steps_eq]
    exact Nat.mul_div_cancel _ (Nat.two_pow_pos _)
  have bits : gapLog x * 2 ^ 52 + significand x = exponentField x * 2 ^ 52 + fractionField x := by
    unfold gapLog significand
    split <;> omega
  unfold ofSteps
  simp only [Nat.pow_eq, log2_steps_sub, digits, bits, ← toNat_toBits]
  rw [UInt64.ofNat_toNat, Float.ofBits_toBits]

theorem toBits_ofBits {bits : UInt64} (finite : bits.toNat / 2 ^ 52 % 2048 ≠ 2047) :
    (Float.ofBits bits).toBits = bits := by
  refine UInt64.toBitVec_inj.mp ?_
  change UnpackedFloat.pack .binary64 (UnpackedFloat.unpack .binary64 bits.toBitVec) = _
  rw [pack_unpack, if_neg]
  simp only [isNaNBits, decide_eq_true_eq, not_and_or]
  refine .inl fun allOnes => finite ?_
  have same := congrArg BitVec.toNat allOnes
  rw [unpackExponent_def, BitVec.extractLsb'_toNat, Nat.shiftRight_eq_div_pow] at same
  exact same

/-- All fields but those of infinities and NaN are those of a number. -/
theorem exists_fields {exponent fraction : Nat} (inRange : exponent < 2047)
    (small : fraction < 2 ^ 52) (negative : Bool) :
    ∃ x, exponentField x = exponent ∧ fractionField x = fraction ∧ signBit x = negative := by
  obtain ⟨bits, isBits⟩ : ∃ bits, bits =
    exponent * 2 ^ 52 + fraction + if negative then 2 ^ 63 else 0 := ⟨_, rfl⟩
  have within : bits < 2 ^ 64 := by
    rw [isBits]
    split <;> omega
  have exponentBits : bits / 2 ^ 52 % 2048 = exponent := by
    rw [isBits]
    split <;> omega
  have inWord : (UInt64.ofNat bits).toNat = bits := Nat.mod_eq_of_lt within
  have stored : (Float.ofBits (UInt64.ofNat bits)).toBits.toNat = bits := by
    rw [toBits_ofBits, inWord]
    rw [inWord, exponentBits]
    exact Nat.ne_of_lt inRange
  refine ⟨Float.ofBits (UInt64.ofNat bits), ?_, ?_, ?_⟩
  · rw [exponentField, stored]
    exact exponentBits
  · rw [fractionField, stored, Nat.pow_eq, isBits]
    split <;> omega
  · rw [signBit, stored, Nat.pow_eq, isBits]
    cases negative
    · exact decide_eq_false (by simp only [Bool.false_eq_true, if_false]; omega)
    · exact decide_eq_true (Nat.le_add_left _ _)

/-- The magnitudes of finite numbers, in steps. -/
def IsMagnitude (magnitude : Nat) : Prop :=
  ∃ significand gap, significand < 2 ^ 53 ∧ gap ≤ 2045 ∧ magnitude = significand * 2 ^ gap

theorem isMagnitude_steps {x : Float} (finite : isFinite x = true) : IsMagnitude (steps x) := by
  have inRange : exponentField x ≠ 2047 := of_decide_eq_true finite
  have small := exponentField_lt x
  exact ⟨significand x, gapLog x, significand_lt x, by unfold gapLog; omega, steps_eq x⟩

theorem isFinite_of_exponentField {x : Float} {exponent : Nat} (same : exponentField x = exponent)
    (inRange : exponent < 2047) : isFinite x = true :=
  decide_eq_true (same ▸ Nat.ne_of_lt inRange)

theorem exists_normal {significand gap : Nat} (large : 2 ^ 52 ≤ significand)
    (small : significand < 2 ^ 53) (within : gap ≤ 2045) (negative : Bool) :
    ∃ x, isFinite x = true ∧ steps x = significand * 2 ^ gap ∧ signBit x = negative := by
  obtain ⟨x, exponent, fraction, isSign⟩ :=
    @exists_fields (gap + 1) (significand - 2 ^ 52) (by omega) (by omega) negative
  refine ⟨x, isFinite_of_exponentField exponent (by omega), ?_, isSign⟩
  have digits : 2 ^ 52 + (significand - 2 ^ 52) = significand := by omega
  rw [steps, if_neg (by omega), gapLog, exponent, fraction, Nat.add_sub_cancel]
  simp only [Nat.pow_eq, digits]

theorem exists_subnormal {fraction : Nat} (small : fraction < 2 ^ 52) (negative : Bool) :
    ∃ x, isFinite x = true ∧ steps x = fraction ∧ signBit x = negative := by
  obtain ⟨x, exponent, isFraction, isSign⟩ := @exists_fields 0 fraction (by omega) small negative
  refine ⟨x, isFinite_of_exponentField exponent (by omega), ?_, isSign⟩
  rw [steps, if_pos exponent, isFraction]

/-- Every magnitude is that of a number, of either sign. -/
theorem IsMagnitude.exists_float {magnitude : Nat} (fits : IsMagnitude magnitude)
    (negative : Bool) : ∃ x, isFinite x = true ∧ steps x = magnitude ∧ signBit x = negative := by
  obtain ⟨significand, gap, small, within, rfl⟩ := fits
  -- A significand that leaves its hidden digit unused goes with the next smaller gap.
  induction gap generalizing significand with
  | zero =>
    by_cases large : 2 ^ 52 ≤ significand
    · exact exists_normal large small within negative
    · rw [pow_zero, mul_one]
      exact exists_subnormal (by omega) negative
  | succ gap ih =>
    by_cases large : 2 ^ 52 ≤ significand
    · exact exists_normal large small within negative
    · rw [pow_succ', ← mul_assoc]
      exact ih (significand * 2) (by omega) (by omega)

/-- The number with a sign and a magnitude has them. -/
theorem ofSteps_spec {magnitude : Nat} (fits : IsMagnitude magnitude) (negative : Bool) :
    isFinite (ofSteps negative magnitude) = true ∧ steps (ofSteps negative magnitude) = magnitude ∧
      signBit (ofSteps negative magnitude) = negative := by
  obtain ⟨x, finite, rfl, rfl⟩ := fits.exists_float negative
  rw [ofSteps_steps]
  exact ⟨finite, rfl, rfl⟩

theorem isZero_eq (x : Float) : isZero x = (x == 0) := by
  have positive : ofSteps false 0 = 0 := by decide +kernel
  have negative : ofSteps true 0 = -0 := by decide +kernel
  have number : (0 : Float) ≠ Float.nan ∧ (-0 : Float) ≠ Float.nan := by decide +kernel
  have zeros : isZero 0 = true ∧ isZero (-0) = true := by decide +kernel
  rw [Bool.eq_iff_iff, Float.beq_iff_ne_nan_and_eq]
  constructor
  · intro zero
    have none : steps x = 0 := of_decide_eq_true (Bool.and_eq_true_iff.mp zero).2
    have found := ofSteps_steps x
    rw [none] at found
    cases sign : signBit x
    · rw [sign, positive] at found
      exact found ▸ ⟨number.1, number.1, .inl rfl⟩
    · rw [sign, negative] at found
      exact found ▸ ⟨number.2, number.1, .inr (.inr ⟨rfl, rfl⟩)⟩
  · rintro ⟨_, _, rfl | ⟨rfl, _⟩ | ⟨rfl, _⟩⟩
    exacts [zeros.1, zeros.1, zeros.2]

theorem steps_pos {x : Float} (finite : isFinite x = true) (nonzero : isZero x = false) :
    0 < steps x := by
  rw [isZero, finite, Bool.true_and, decide_eq_false_iff_not] at nonzero
  exact Nat.pos_of_ne_zero nonzero

end Steps

section Rationals

/-- The rational number that a finite number is. -/
def value (x : Float) : ℚ :=
  match x.toModel.unpack with
  | .finite sign significand exponent _ => sign.apply significand * 2 ^ exponent
  | _ => 0

theorem apply_zero (sign : Sign) : sign.apply 0 = 0 := by cases sign <;> rfl

theorem apply_mul (sign : Sign) (n m : Int) : sign.apply (n * m) = sign.apply n * m := by
  cases sign
  · exact (Int.neg_mul n m).symm
  · rfl

theorem natAbs_apply (sign : Sign) (n : Nat) : (sign.apply n).natAbs = n := by
  cases sign
  · exact Int.natAbs_neg n
  · rfl

theorem stepsPerOne_ne_zero : (stepsPerOne : ℚ) ≠ 0 := by
  rw [← two_pow_log2_stepsPerOne]
  positivity

theorem value_eq {x : Float} (finite : isFinite x = true) :
    value x = (sign x).apply (steps x) / stepsPerOne := by
  have inRange : exponentField x ≠ 2047 := of_decide_eq_true finite
  rw [value, unpack_eq, if_neg inRange, steps_eq]
  by_cases zero : significand x = 0
  · rw [dif_pos zero, zero, Nat.zero_mul, Int.natCast_zero, apply_zero, Int.cast_zero, zero_div]
  · rw [dif_neg zero]
    dsimp only
    rw [zpow_sub₀ two_ne_zero, zpow_natCast, zpow_natCast, Nat.cast_mul, apply_mul, Int.cast_mul,
      mul_div_assoc, ← Nat.cast_two, ← Nat.cast_pow, ← Nat.cast_pow, two_pow_log2_stepsPerOne,
      Int.cast_natCast]

theorem signBit_eq_decide {x : Float} (nonzero : steps x ≠ 0) :
    signBit x = decide ((sign x).apply (steps x) < 0) := by
  unfold sign
  cases signBit x with
  | true => simpa [Sign.apply] using Nat.pos_of_ne_zero nonzero
  | false => simp [Sign.apply]

/-- Finite numbers of the same value are the same, unless they are the two zeros. -/
theorem eq_of_value {x y : Float} (finiteX : isFinite x = true) (finiteY : isFinite y = true)
    (same : value x = value y) (zero : steps x = 0 → signBit x = signBit y) : x = y := by
  rw [value_eq finiteX, value_eq finiteY, div_left_inj' stepsPerOne_ne_zero, Int.cast_inj] at same
  have sameSteps : steps x = steps y := by
    rw [← natAbs_apply (sign x) (steps x), same, natAbs_apply]
  have sameSign : signBit x = signBit y := by
    by_cases none : steps x = 0
    · exact zero none
    · rw [signBit_eq_decide none, same, ← signBit_eq_decide (sameSteps ▸ none)]
  rw [← ofSteps_steps x, sameSteps, sameSign, ofSteps_steps]

end Rationals

section Order

theorem compare_swap (x y : UnpackedFloat) : y.compare x = (x.compare y).map Ordering.swap := by
  have signs (s t : Sign) : compare t s = (compare s t).swap := by
    cases s <;> cases t <;> rfl
  have sizes (e₁ e₂ : Int) (m₁ m₂ : Nat) :
      (compare e₂ e₁).then (compare m₂ m₁) = ((compare e₁ e₂).then (compare m₁ m₂)).swap := by
    rw [Ordering.swap_then, Std.OrientedOrd.eq_swap (a := e₂), Std.OrientedOrd.eq_swap (a := m₂)]
  cases x with
  | notANumber => cases y <;> rfl
  | infinity s =>
    cases y with
    | infinity t => exact congrArg some (signs s t)
    | notANumber | zero | finite => cases s <;> rfl
  | zero s =>
    cases y with
    | infinity t | finite t => cases t <;> rfl
    | notANumber | zero => rfl
  | finite s m₁ e₁ =>
    cases y with
    | notANumber => rfl
    | infinity t => cases t <;> rfl
    | zero => cases s <;> rfl
    | finite t m₂ e₂ =>
      cases s <;> cases t
      case negative.negative => exact congrArg (some ∘ Ordering.swap) (sizes e₁ e₂ m₁ m₂)
      case positive.positive => exact congrArg some (sizes e₁ e₂ m₁ m₂)
      all_goals rfl

theorem compare_eq_none_iff (x y : UnpackedFloat) :
    x.compare y = none ↔ x.isNaN = true ∨ y.isNaN = true := by
  fun_cases UnpackedFloat.compare x y <;> simp_all

theorem lt_iff (x y : Float) :
    x < y ↔ x.toModel.unpack.compare y.toModel.unpack = some .lt := by
  change decide (UnpackedFloat.lt _ _ = true) = true ↔ _
  rw [decide_eq_true_eq]
  exact beq_iff_eq

theorem le_iff (x y : Float) :
    x ≤ y ↔ (x.toModel.unpack.compare y.toModel.unpack).any Ordering.isLE = true := by
  change decide (UnpackedFloat.le _ _ = true) = true ↔ _
  rw [decide_eq_true_eq]
  rfl

theorem compare_ne_none_iff (x y : Float) :
    x.toModel.unpack.compare y.toModel.unpack ≠ none ↔ x.isNaN = false ∧ y.isNaN = false := by
  rw [Ne, compare_eq_none_iff, not_or, Bool.not_eq_true, Bool.not_eq_true]
  rfl

theorem isNaN_of_lt {x y : Float} (below : x < y) : x.isNaN = false ∧ y.isNaN = false := by
  rw [← compare_ne_none_iff, (lt_iff x y).mp below]
  exact Option.some_ne_none _

/-- Only NaN keeps two numbers from being ordered one way or the other. -/
theorem le_iff_not_lt (x y : Float) :
    x ≤ y ↔ (x.isNaN = false ∧ y.isNaN = false) ∧ ¬ y < x := by
  rw [← compare_ne_none_iff, le_iff, lt_iff,
    compare_swap x.toModel.unpack y.toModel.unpack]
  cases x.toModel.unpack.compare y.toModel.unpack with
  | none => simp
  | some ordering => cases ordering <;> simp

end Order

end Hyperscript.Binary64
