import Hyperscript.Proofs.Number.Values

/-! The remainder of two numbers. What generated code computes for `%` is said of the rational
numbers that the operands are: the dividend less the divisor times the quotient rounded towards
zero. That leaves one number, and it is the one computed here from the steps. -/
namespace Hyperscript.Binary64

open Float.Model.UnpackedFloat

/-- Rounded towards zero. -/
def truncate (q : ℚ) : ℤ := if 0 ≤ q then ⌊q⌋ else ⌈q⌉

/-- The remainder of a dividend `n` and a divisor `d`. A remainder of zero has the sign of the
dividend. -/
inductive IsRemainder (n d : Float) : Float → Prop where
  | undefined (reason : n.isNaN ∨ d.isNaN ∨ n.isInf ∨ d == 0) : IsRemainder n d Float.nan
  | dividend (finite : n.isFinite) (infinite : d.isInf) : IsRemainder n d n
  | exact {r : Float} (finite : n.isFinite ∧ d.isFinite) (nonzero : (d == 0) = false)
    (number : r.isFinite) (value_eq : value r = value n - value d * truncate (value n / value d))
    (zero : r == 0 → signBit r = signBit n) : IsRemainder n d r

theorem truncate_neg (q : ℚ) : truncate (-q) = -truncate q := by
  unfold truncate
  split <;> split
  · have zero : q = 0 := by linarith
    simp [zero]
  · exact Int.floor_neg
  · exact Int.ceil_neg
  · linarith

theorem truncate_div (n d : ℤ) : truncate (n / d) = n.tdiv d := by
  have natural (n d : ℕ) : truncate (n / d) = (n : ℤ).tdiv d := by
    rw [truncate, if_pos (by positivity)]
    exact Rat.floor_intCast_div_natCast n d
  obtain ⟨n, rfl | rfl⟩ := n.eq_nat_or_neg <;> obtain ⟨d, rfl | rfl⟩ := d.eq_nat_or_neg <;>
    simp [neg_div, div_neg, truncate_neg, natural]

theorem apply_tmod (s t : Sign) (n d : ℕ) :
    (s.apply n).tmod (t.apply d) = s.apply (n % d : ℕ) := by
  have natural : (n : ℤ).tmod d = (n % d : ℕ) := (Int.ofNat_tmod n d).symm
  cases s <;> cases t <;> simpa [Sign.apply] using natural

/-- The remainder of two magnitudes is a multiple of the smaller gap. -/
theorem IsMagnitude.mod {dividend divisor : ℕ} (first : IsMagnitude dividend)
    (second : IsMagnitude divisor) (positive : 0 < divisor) : IsMagnitude (dividend % divisor) := by
  obtain ⟨significand₁, gap₁, small₁, within₁, rfl⟩ := first
  obtain ⟨significand₂, gap₂, small₂, within₂, rfl⟩ := second
  obtain ⟨wider, rfl⟩ | ⟨wider, rfl⟩ :=
    (Nat.le_total gap₁ gap₂).imp Nat.exists_eq_add_of_le Nat.exists_eq_add_of_le
  · refine ⟨significand₁ % (significand₂ * 2 ^ wider), gap₁, ?_, within₁, ?_⟩
    · exact Nat.lt_of_le_of_lt (Nat.mod_le _ _) small₁
    · rw [Nat.add_comm, pow_add, ← mul_assoc, Nat.mul_mod_mul_right]
  · refine ⟨significand₁ * 2 ^ wider % significand₂, gap₂, ?_, within₂, ?_⟩
    · exact Nat.lt_trans (Nat.mod_lt _ (Nat.pos_of_mul_pos_right positive)) small₂
    · rw [Nat.add_comm, pow_add, ← mul_assoc, Nat.mul_mod_mul_right]

section Finite

variable {n d : Float} (finiteN : isFinite n = true) (finiteD : isFinite d = true)

include finiteN finiteD

theorem value_sub_mul_truncate :
    value n - value d * truncate (value n / value d) =
      (sign n).apply (steps n % steps d : ℕ) / stepsPerOne := by
  rw [value_eq finiteN, value_eq finiteD, div_div_div_cancel_right₀ stepsPerOne_ne_zero,
    truncate_div, ← apply_tmod _ (sign d), Int.tmod_def]
  push_cast
  ring

variable (nonzero : isZero d = false)

include nonzero

theorem remainder_eq_ofSteps : remainder n d = ofSteps (signBit n) (steps n % steps d) := by
  have regular : (isNaN n || isNaN d || isInfinite n || isZero d) = false := by
    simp [isNaN, isInfinite, finiteN, finiteD, nonzero]
  have bounded : isInfinite d = false := by simp [isInfinite, finiteD]
  rw [remainder, regular, bounded, if_neg Bool.false_ne_true, if_neg Bool.false_ne_true]

theorem remainder_spec : isFinite (remainder n d) = true ∧
    steps (remainder n d) = steps n % steps d ∧ signBit (remainder n d) = signBit n := by
  rw [remainder_eq_ofSteps finiteN finiteD nonzero]
  exact ofSteps_spec ((isMagnitude_steps finiteN).mod (isMagnitude_steps finiteD)
    (steps_pos finiteD nonzero)) _

theorem value_remainder :
    value (remainder n d) = value n - value d * truncate (value n / value d) := by
  obtain ⟨finite, isSteps, isSign⟩ := remainder_spec finiteN finiteD nonzero
  rw [value_sub_mul_truncate finiteN finiteD, value_eq finite, isSteps, sign, isSign]
  rfl

end Finite

section Special

variable {n d : Float}

theorem isFinite_of_not {x : Float} (number : x.isNaN = false) (bounded : x.isInf = false) :
    isFinite x = true := by
  rw [← isNaN_eq, isNaN] at number
  rw [← isInfinite_eq, isInfinite] at bounded
  cases finite : isFinite x
  · rw [finite] at number bounded
    simp_all
  · rfl

theorem remainder_of_undefined (reason : n.isNaN ∨ d.isNaN ∨ n.isInf ∨ d == 0) :
    remainder n d = Float.nan := by
  rw [← isNaN_eq, ← isNaN_eq, ← isInfinite_eq, ← isZero_eq] at reason
  have isUndefined : (isNaN n || isNaN d || isInfinite n || isZero d) = true := by
    simpa only [Bool.or_eq_true, or_assoc] using reason
  rw [remainder, if_pos isUndefined]
  rfl

theorem remainder_of_isInf (finite : n.isFinite) (infinite : d.isInf) : remainder n d = n := by
  rw [← isFinite_eq] at finite
  rw [← isInfinite_eq] at infinite
  have unbounded : isFinite d = false ∧ fractionField d = 0 := by simpa [isInfinite] using infinite
  have regular : (isNaN n || isNaN d || isInfinite n || isZero d) = false := by
    simp [isNaN, isInfinite, isZero, finite, unbounded]
  rw [remainder, regular, if_neg Bool.false_ne_true, if_pos infinite]

end Special

theorem isRemainder_remainder (n d : Float) : IsRemainder n d (remainder n d) := by
  by_cases reason : n.isNaN ∨ d.isNaN ∨ n.isInf ∨ d == 0
  · exact (remainder_of_undefined reason).symm ▸ .undefined reason
  simp only [not_or, Bool.not_eq_true] at reason
  obtain ⟨numberN, numberD, boundedN, nonzero⟩ := reason
  have finiteN := isFinite_of_not numberN boundedN
  by_cases infinite : d.isInf
  · have finite : n.isFinite := (isFinite_eq n).symm.trans finiteN
    exact (remainder_of_isInf finite infinite).symm ▸ .dividend finite infinite
  · have finiteD := isFinite_of_not numberD (Bool.not_eq_true _ ▸ infinite)
    have nonzeroD : isZero d = false := (isZero_eq d).trans nonzero
    obtain ⟨number, _, isSign⟩ := remainder_spec finiteN finiteD nonzeroD
    refine .exact ⟨?_, ?_⟩ nonzero ?_ (value_remainder finiteN finiteD nonzeroD) fun _ => isSign
    exacts [(isFinite_eq n).symm.trans finiteN, (isFinite_eq d).symm.trans finiteD,
      (isFinite_eq _).symm.trans number]

/-- Two numbers have one remainder, and it is the one computed. -/
theorem isRemainder_iff {n d r : Float} : IsRemainder n d r ↔ r = remainder n d := by
  constructor
  · rintro (reason | ⟨finite, infinite⟩ | ⟨⟨finiteN, finiteD⟩, nonzero, number, isValue, zero⟩)
    · exact (remainder_of_undefined reason).symm
    · exact (remainder_of_isInf finite infinite).symm
    · rw [← isFinite_eq] at finiteN finiteD number
      rw [← isZero_eq] at nonzero
      obtain ⟨computed, isSteps, isSign⟩ := remainder_spec finiteN finiteD nonzero
      refine eq_of_value number computed (isValue.trans ?_) fun none => ?_
      · exact (value_remainder finiteN finiteD nonzero).symm
      · have isZero : isZero r = true := by rw [Binary64.isZero, number, none]; rfl
        exact (zero (isZero_eq r ▸ isZero)).trans isSign.symm
  · rintro rfl
    exact isRemainder_remainder n d

end Hyperscript.Binary64
