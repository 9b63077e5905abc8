import Hyperscript.Number.Text
import Mathlib.Algebra.Order.Ring.Nat
import Mathlib.Data.List.TakeWhile
import Mathlib.Tactic.Ring

/-! The form of numbers in code. The digits of a finite number have no zero in front of others,
and there is neither a point nor an exponent among them exactly for the whole numbers below
`10 ^ 21`. That the shortest digits of a number with a fraction have a point is a fact about
rounding: between such a number and the nearest whole one lies at least one gap, and the decimals
that denote the number lie within half a gap. -/
namespace Hyperscript

/-- Digits, then a point with digits and an exponent, either of which may be missing. -/
structure Number.IsDecimal (text whole fraction exponent : List Char) : Prop where
  text : text = whole ++ (fraction ++ exponent)
  digits : ∀ c ∈ whole, c.isDigit = true
  nonempty : whole ≠ []
  leading : whole.head? = some '0' → whole = ['0']
  fraction : fraction = [] ∨ ∃ digits, fraction = '.' :: digits ∧ ∀ c ∈ digits, c.isDigit = true
  exponent : exponent = [] ∨ ∃ sign digits, exponent = 'e' :: sign :: digits ∧
    sign ∈ ['+', '-'] ∧ digits ≠ [] ∧ ∀ c ∈ digits, c.isDigit = true

namespace Decimal

theorem isDigit_toDigits (n : Nat) : ∀ c ∈ Nat.toDigits 10 n, c.isDigit = true :=
  fun _ member => Nat.isDigit_of_mem_toDigits (by decide) (by decide) member

theorem digitChar_eq_zero {d : Nat} (small : d < 10) (zero : d.digitChar = '0') : d = 0 := by
  have digits : ∀ d < 10, d.digitChar = '0' → d = 0 := by decide
  exact digits d small zero

theorem head?_toDigits_ne {n : Nat} (positive : 0 < n) :
    (Nat.toDigits 10 n).head? ≠ some '0' := by
  induction n using Nat.strongRecOn with
  | ind n ih =>
    rw [Nat.toDigits_eq_if (by decide)]
    split
    next small =>
      intro same
      exact absurd (digitChar_eq_zero small (Option.some.inj same)) (by omega)
    next large =>
      have others := ih (n / 10) (by omega) (by omega)
      obtain ⟨first, rest, written⟩ :=
        List.exists_cons_of_ne_nil (@Nat.toDigits_ne_nil (n / 10) 10)
      rw [written] at others ⊢
      exact others

/-- A number with zeros at its end is a multiple of that power of ten. -/
theorem pow_dvd_of_trailing {n k : Nat} (positive : 0 < n)
    (zeros : k ≤ ((Nat.toDigits 10 n).reverse.takeWhile (· == '0')).length) : 10 ^ k ∣ n := by
  induction k generalizing n with
  | zero => simp
  | succ k ih =>
    rw [Nat.toDigits_eq_if (by decide)] at zeros
    split at zeros
    next small =>
      have other : n.digitChar ≠ '0' := fun zero => absurd (digitChar_eq_zero small zero) (by omega)
      simp [other] at zeros
    next large =>
      rw [List.reverse_append, List.reverse_singleton, List.singleton_append] at zeros
      by_cases last : (n % 10).digitChar = '0'
      · have divided : n % 10 = 0 := digitChar_eq_zero (Nat.mod_lt n (by decide)) last
        rw [List.takeWhile_cons_of_pos (by simpa using last), List.length_cons,
          Nat.succ_le_succ_iff] at zeros
        obtain ⟨rest, same⟩ := ih (by omega) zeros
        exact ⟨rest, by rw [Nat.pow_succ, Nat.mul_assoc, Nat.mul_left_comm, ← same]; omega⟩
      · rw [List.takeWhile_cons_of_neg (by simpa using last)] at zeros
        exact absurd zeros (by simp)

section Coefficient

variable {coefficient : Nat} {exponent : Int}

theorem digits_isPrefix (coefficient : Nat) (exponent : Int) :
    (ofCoefficient coefficient exponent).digits <+: Nat.toDigits 10 coefficient := by
  rw [← List.reverse_suffix]
  simp only [ofCoefficient, List.reverse_reverse]
  exact List.dropWhile_suffix _

/-- The digits of a decimal that is not zero. -/
theorem digits_ofCoefficient (positive : 0 < coefficient) :
    ∃ first rest, (ofCoefficient coefficient exponent).digits = first :: rest ∧ first ≠ '0' ∧
      ∀ c ∈ first :: rest, c.isDigit = true := by
  obtain ⟨first, others, written⟩ :=
    List.exists_cons_of_ne_nil (@Nat.toDigits_ne_nil coefficient 10)
  have nonzero : first ≠ '0' := by
    have head := head?_toDigits_ne positive
    rw [written] at head
    rintro rfl
    exact head rfl
  cases digits : (ofCoefficient coefficient exponent).digits with
  | nil =>
    -- Then all digits were zeros, the first one too.
    simp only [ofCoefficient, List.reverse_eq_nil_iff, List.dropWhile_eq_nil_iff] at digits
    have zero := digits first (by simp [written])
    exact absurd (by simpa using zero) nonzero
  | cons found rest =>
    have start := digits_isPrefix coefficient exponent
    rw [digits] at start
    have isDigit : ∀ c ∈ found :: rest, c.isDigit = true := fun c member =>
      isDigit_toDigits coefficient c (start.subset member)
    rw [written, List.cons_prefix_cons] at start
    exact ⟨found, rest, rfl, start.1 ▸ nonzero, isDigit⟩

/-- A decimal whose digits do not reach behind the point. -/
theorem pow_dvd_of_length_le (positive : 0 < coefficient)
    (inside : 0 < (ofCoefficient coefficient exponent).point)
    (short : (ofCoefficient coefficient exponent).digits.length ≤
      (ofCoefficient coefficient exponent).point.toNat) :
    10 ^ (-exponent).toNat ∣ coefficient := by
  apply pow_dvd_of_trailing positive
  have parts := congrArg List.length
    (@List.takeWhile_append_dropWhile _ (· == '0') (Nat.toDigits 10 coefficient).reverse)
  simp only [List.length_append, List.length_reverse] at parts
  simp only [ofCoefficient, List.length_reverse] at inside short
  omega

end Coefficient
end Decimal

namespace Binary64

variable {x : Float}

theorem gap_dvd_steps (x : Float) : Nat.pow 2 (gapLog x) ∣ steps x := by
  unfold steps
  split
  next subnormal =>
    have none : gapLog x = 0 := by rw [gapLog, subnormal]
    rw [none]
    exact Nat.one_dvd _
  next => exact Nat.dvd_mul_left _ _

theorem isWhole_eq_false_iff (finite : isFinite x = true) :
    isWhole x = false ↔ ¬ stepsPerOne ∣ steps x := by
  rw [isWhole, finite, Bool.true_and, decide_eq_false_iff_not, Nat.dvd_iff_mod_eq_zero]

theorem isZero_eq_true_iff (finite : isFinite x = true) : isZero x = true ↔ steps x = 0 := by
  rw [isZero, finite, Bool.true_and, decide_eq_true_eq]

theorem stepsPerOne_dvd_steps (whole : isWhole x = true) : stepsPerOne ∣ steps x := by
  rw [isWhole, Bool.and_eq_true, decide_eq_true_eq] at whole
  exact Nat.dvd_of_mod_eq_zero whole.2

theorem stepsPerOne_pos : 0 < stepsPerOne := by
  unfold stepsPerOne
  generalize 1074 = places
  exact Nat.pow_pos (by decide)

/-- Where numbers have fractions, one is a multiple of the gap. -/
theorem gap_dvd_stepsPerOne (finite : isFinite x = true) (fractional : isWhole x = false) :
    Nat.pow 2 (gapLog x) ∣ stepsPerOne := by
  rw [isWhole_eq_false_iff finite] at fractional
  unfold stepsPerOne at fractional ⊢
  generalize 1074 = places at fractional ⊢
  by_cases narrow : gapLog x ≤ places
  · exact Nat.pow_dvd_pow 2 narrow
  · have wide : Nat.pow 2 places ∣ Nat.pow 2 (gapLog x) := Nat.pow_dvd_pow 2 (by omega)
    exact absurd (wide.trans (gap_dvd_steps x)) fractional

end Binary64

namespace Decimal.Basin

open Binary64

variable {x : Float} {coefficient : Nat} {exponent : Int}

theorem contains_of_nearest? {basin : Basin} {tie : Tie}
    (found : basin.nearest? tie exponent = some coefficient) :
    basin.contains coefficient exponent = true := by
  unfold nearest? at found
  dsimp only at found
  split at found
  next => cases found
  next below _ =>
    cases found
    exact below
  next _ above =>
    cases found
    exact above
  next below above =>
    split at found
    · cases found
      exact below
    · split at found
      · cases found
        exact above
      · cases tie with
        | up =>
          cases found
          exact above
        | even =>
          cases found
          split
          · exact below
          · exact above

/-- What the search ends with: a decimal in the basin, or the exact expansion. -/
theorem exists_search (basin : Basin) (tie : Tie) (fuel : Nat) (exponent : Int) :
    ∃ coefficient place, basin.search tie fuel exponent = ofCoefficient coefficient place ∧
      (basin.contains coefficient place = true ∨
        coefficient = basin.center / 4 * Nat.pow 5 1074 ∧ place = -1074) := by
  induction fuel generalizing exponent with
  | zero => exact ⟨_, _, rfl, .inr ⟨rfl, rfl⟩⟩
  | succ fuel ih =>
    rw [search]
    split
    next coefficient found => exact ⟨coefficient, exponent, rfl, .inl (contains_of_nearest? found)⟩
    next => exact ih (exponent - 1)

/-- Of the multiples of the gap, only the number itself is in its basin. -/
theorem contains_eq_false {value : Nat}
    (same : coefficient * gridUnit exponent = 4 * value * gridZoom exponent)
    (multiple : Nat.pow 2 (gapLog x) ∣ value) (other : value ≠ steps x) :
    (Basin.of x).contains coefficient exponent = false := by
  have zoomed : 0 < gridZoom exponent := Nat.pow_pos (by decide)
  have gap : 0 < Nat.pow 2 (gapLog x) := Nat.pow_pos (by decide)
  obtain ⟨a, rfl⟩ := multiple
  obtain ⟨b, isSteps⟩ := gap_dvd_steps x
  rw [isSteps] at other
  -- Two different multiples are a gap apart.
  have apart : Nat.pow 2 (gapLog x) * a + Nat.pow 2 (gapLog x) ≤ Nat.pow 2 (gapLog x) * b ∨
      Nat.pow 2 (gapLog x) * b + Nat.pow 2 (gapLog x) ≤ Nat.pow 2 (gapLog x) * a := by
    rw [← Nat.mul_succ, ← Nat.mul_succ]
    obtain less | equal | more := Nat.lt_trichotomy a b
    · exact .inl (Nat.mul_le_mul_left _ less)
    · exact absurd (by rw [equal]) other
    · exact .inr (Nat.mul_le_mul_left _ more)
  have low : 4 * steps x - 2 * Nat.pow 2 (gapLog x) ≤ (Basin.of x).low := by
    simp only [Basin.of]
    split <;> omega
  have high : (Basin.of x).high = 4 * steps x + 2 * Nat.pow 2 (gapLog x) := rfl
  rw [isSteps] at low high
  have outside : 4 * (Nat.pow 2 (gapLog x) * a) < (Basin.of x).low ∨
      (Basin.of x).high < 4 * (Nat.pow 2 (gapLog x) * a) := by
    omega
  have scaled : 4 * (Nat.pow 2 (gapLog x) * a) * gridZoom exponent <
      (Basin.of x).low * gridZoom exponent ∨
      (Basin.of x).high * gridZoom exponent <
        4 * (Nat.pow 2 (gapLog x) * a) * gridZoom exponent :=
    outside.imp (fun below => Nat.mul_lt_mul_of_pos_right below zoomed)
      fun above => Nat.mul_lt_mul_of_pos_right above zoomed
  simp only [contains, same]
  split
  · simp only [Bool.and_eq_false_iff, decide_eq_false_iff_not]
    omega
  · simp only [Bool.and_eq_false_iff, decide_eq_false_iff_not]
    omega

end Decimal.Basin

namespace Decimal

open Binary64

variable {x : Float}

/-- Twos and fives are what makes tens. -/
theorem pow_two_dvd_of_pow_ten_dvd {n places : Nat}
    (divides : Nat.pow 10 places ∣ n * Nat.pow 5 places) : Nat.pow 2 places ∣ n := by
  have tens : Nat.pow 10 places = Nat.pow 2 places * Nat.pow 5 places := Nat.mul_pow 2 5 places
  rw [tens] at divides
  exact Nat.dvd_of_mul_dvd_mul_right (Nat.pow_pos (by decide)) divides

/-- The decimal of a number that is not zero is not zero. If the number has a fraction, so has
the decimal. -/
theorem exists_shortest (finite : isFinite x = true) (nonzero : steps x ≠ 0) :
    ∃ coefficient exponent, shortest .up x = ofCoefficient coefficient exponent ∧
      0 < coefficient ∧
      (isWhole x = false → 0 < (shortest .up x).point →
        (shortest .up x).point.toNat < (shortest .up x).digits.length) := by
  obtain ⟨coefficient, exponent, found, reason⟩ := (Basin.of x).exists_search .up
    ((Basin.of x).place + 1074).toNat ((Basin.of x).place - 1)
  have center : (Basin.of x).center / 4 = steps x := Nat.mul_div_cancel_left _ (by decide)
  have positive : 0 < coefficient := by
    apply Nat.pos_of_ne_zero
    rintro rfl
    obtain inside | ⟨expansion, -⟩ := reason
    · have outside := @Basin.contains_eq_false x 0 exponent 0 (by simp) (Nat.dvd_zero _)
        nonzero.symm
      rw [outside] at inside
      cases inside
    · rw [center] at expansion
      generalize 1074 = places at expansion
      exact absurd expansion.symm (Nat.mul_ne_zero nonzero (Nat.pow_pos (by decide)).ne')
  have same : shortest .up x = ofCoefficient coefficient exponent := found
  refine ⟨coefficient, exponent, same, positive, fun fractional ahead => ?_⟩
  rw [same] at ahead ⊢
  by_contra short
  have divides := pow_dvd_of_length_le positive ahead (Nat.le_of_not_lt short)
  have notWhole := (isWhole_eq_false_iff finite).mp fractional
  obtain inside | ⟨expansion, place⟩ := reason
  · obtain ⟨n, rfl⟩ := divides
    -- The decimal is a whole number, and no whole number is in the basin.
    have value : 10 ^ (-exponent).toNat * n * gridUnit exponent =
        4 * (stepsPerOne * (n * 10 ^ exponent.toNat)) * gridZoom exponent := by
      simp only [gridUnit, gridZoom, Nat.pow_eq]
      ring
    have one : stepsPerOne ∣ stepsPerOne * (n * 10 ^ exponent.toNat) := Nat.dvd_mul_right _ _
    have outside := @Basin.contains_eq_false x _ exponent _ value
      ((gap_dvd_stepsPerOne finite fractional).trans one) (fun same => notWhole (same ▸ one))
    rw [outside] at inside
    cases inside
  · rw [place, expansion, center] at divides
    have places : (-(-1074 : Int)).toNat = 1074 := by decide
    rw [places] at divides
    unfold stepsPerOne at notWhole
    generalize 1074 = digits at divides notWhole
    exact notWhole (pow_two_dvd_of_pow_ten_dvd divides)

end Decimal

namespace Number

open Binary64 Decimal

variable {x : Float}

/-- The form of a decimal with an exponent. -/
theorem isDecimal_significand {first : Char} {rest : List Char} {decimal : Decimal}
    (digits : decimal.digits = first :: rest) (isDigit : ∀ c ∈ first :: rest, c.isDigit = true)
    {sign : Char} (signed : sign ∈ ['+', '-']) (n : Nat) :
    ∃ fraction, IsDecimal (decimal.significand ++ 'e' :: sign :: Nat.toDigits 10 n) [first] fraction
      ('e' :: sign :: Nat.toDigits 10 n) := by
  obtain ⟨isFirst, isRest⟩ := List.forall_mem_cons.mp isDigit
  have exponent : ∃ sign' digits', 'e' :: sign :: Nat.toDigits 10 n = 'e' :: sign' :: digits' ∧
      sign' ∈ ['+', '-'] ∧ digits' ≠ [] ∧ ∀ c ∈ digits', c.isDigit = true :=
    ⟨sign, _, rfl, signed, Nat.toDigits_ne_nil, isDigit_toDigits n⟩
  cases rest with
  | nil =>
    refine ⟨[], ?_, by simpa using isFirst, by simp, by simp, .inl rfl, .inr exponent⟩
    simp [significand, digits]
  | cons second others =>
    refine ⟨'.' :: second :: others, ?_, by simpa using isFirst, by simp, by simp,
      .inr ⟨_, rfl, isRest⟩, .inr exponent⟩
    simp [significand, digits]

/-- The form of a decimal with a fraction and without exponent. -/
theorem isDecimal_positional {first : Char} {rest : List Char} {decimal : Decimal}
    (digits : decimal.digits = first :: rest) (nonzero : first ≠ '0')
    (isDigit : ∀ c ∈ first :: rest, c.isDigit = true)
    (behind : 0 < decimal.point → decimal.point.toNat < decimal.digits.length) :
    ∃ whole fraction, IsDecimal decimal.positional whole ('.' :: fraction) [] := by
  unfold positional
  rw [← digits] at isDigit
  split
  next small =>
    refine ⟨['0'], List.replicate (-decimal.point).toNat '0' ++ decimal.digits, by simp, by simp,
      by simp, by simp, .inr ⟨_, rfl, ?_⟩, .inl rfl⟩
    refine List.forall_mem_append.mpr ⟨fun c member => ?_, isDigit⟩
    rw [List.eq_of_mem_replicate member]
    decide
  next large =>
    have ahead : 0 < decimal.point := by omega
    have longer := behind ahead
    rw [if_neg (Nat.not_le_of_lt longer)]
    refine ⟨decimal.digits.take decimal.point.toNat, decimal.digits.drop decimal.point.toNat,
      by simp, fun c member => isDigit c (List.mem_of_mem_take member), ?_, ?_,
      .inr ⟨_, rfl, fun c member => isDigit c (List.mem_of_mem_drop member)⟩, .inl rfl⟩
    · intro none
      have length := congrArg List.length none
      simp only [List.length_take, List.length_nil] at length
      omega
    · intro zero
      obtain ⟨count, positive⟩ : ∃ count, decimal.point.toNat = count + 1 :=
        Nat.exists_eq_add_one.mpr (by omega)
      rw [digits, positive, List.take_succ_cons] at zero
      exact absurd (Option.some.inj zero) nonzero

/-- The magnitude of a finite number that is not zero is written as a decimal. It has neither a
point nor an exponent exactly if the number is whole and below `10 ^ 21`. -/
theorem exists_isDecimal (finite : isFinite x = true) (nonzero : steps x ≠ 0) :
    ∃ whole fraction exponent, IsDecimal (magnitudeText x) whole fraction exponent ∧
      (fraction ++ exponent = [] ↔ isWhole x = true ∧ steps x < steps exponentFrom) := by
  obtain ⟨coefficient, place, decimal, positive, behind⟩ := exists_shortest finite nonzero
  obtain ⟨first, rest, digits, notZero, isDigit⟩ := @digits_ofCoefficient coefficient place positive
  rw [← decimal] at digits
  unfold magnitudeText
  dsimp only
  split
  next whole =>
    simp only [Bool.and_eq_true, Bool.not_eq_true', decide_eq_false_iff_not, Nat.not_le] at whole
    refine ⟨_, [], [], ⟨(List.append_nil _).symm, isDigit_toDigits _, Nat.toDigits_ne_nil, ?_,
      .inl rfl, .inl rfl⟩, by simpa using whole⟩
    have multiple := stepsPerOne_dvd_steps whole.1
    have quotient : 0 < steps x / stepsPerOne :=
      Nat.div_pos (Nat.le_of_dvd (Nat.pos_of_ne_zero nonzero) multiple) stepsPerOne_pos
    exact fun zero => absurd zero (head?_toDigits_ne quotient)
  next other =>
    simp only [Bool.and_eq_true, Bool.not_eq_true', decide_eq_false_iff_not, Nat.not_le] at other
    split
    next =>
      have signed : (if (shortest .up x).exponent < 0 then '-' else '+') ∈ ['+', '-'] := by
        split <;> decide
      obtain ⟨fraction, written⟩ := isDecimal_significand digits isDigit signed
        (shortest .up x).exponent.natAbs
      exact ⟨_, fraction, _, written, by simpa using other⟩
    next middle =>
      simp only [Bool.or_eq_true, decide_eq_true_eq, not_or, Nat.not_le] at middle
      have fractional : isWhole x = false :=
        Bool.eq_false_iff.mpr fun whole => other ⟨whole, middle.1⟩
      obtain ⟨whole, fraction, written⟩ :=
        isDecimal_positional digits notZero isDigit (behind fractional)
      exact ⟨whole, _, [], written, by simpa using other⟩

theorem steps_exponentFrom : steps exponentFrom = 10 ^ 21 * stepsPerOne := by decide +kernel

/-- The text of a number without its sign. -/
def unsigned (x : Float) : List Char :=
  if isFinite x then if isZero x then ['0'] else magnitudeText x
  else if isNaN x then "NaN".toList else "Infinity".toList

theorem toList_text (x : Float) :
    (text x).toList = if isBelowZero x then '-' :: unsigned x else unsigned x := by
  unfold text unsigned isBelowZero isInfinite
  by_cases finite : isFinite x = true
  · have number : isNaN x = false := by simp [isNaN, finite]
    by_cases zero : isZero x = true
    · simp [finite, number, zero]
    · cases signBit x <;> simp [finite, number, zero]
  · by_cases fraction : fractionField x = 0
    · cases signBit x <;> simp [finite, fraction, isNaN, isZero]
    · simp [finite, fraction, isNaN]

/-- A whole number below `10 ^ 21` is written with digits alone. -/
def isDigits (x : Float) : Bool := isWhole x && decide (steps x < steps exponentFrom)

theorem exists_isDecimal_unsigned (finite : isFinite x = true) :
    ∃ whole fraction exponent, IsDecimal (unsigned x) whole fraction exponent ∧
      (fraction ++ exponent = [] ↔ isDigits x = true) := by
  rw [isDigits, Bool.and_eq_true, decide_eq_true_eq, unsigned, if_pos finite]
  by_cases zero : isZero x = true
  · have none : steps x = 0 := (isZero_eq_true_iff finite).mp zero
    have large : 0 < steps exponentFrom := by
      rw [steps_exponentFrom]
      exact Nat.mul_pos (by decide) stepsPerOne_pos
    rw [if_pos zero]
    refine ⟨['0'], [], [], ⟨rfl, by simp, List.cons_ne_nil _ _, fun _ => rfl, .inl rfl,
      .inl rfl⟩, ?_⟩
    simp [isWhole, finite, none, large]
  · rw [if_neg zero]
    exact exists_isDecimal finite fun none => zero ((isZero_eq_true_iff finite).mpr none)

end Number
end Hyperscript
