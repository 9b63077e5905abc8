import Hyperscript.Code.Expression
import Hyperscript.Code.Listener
import Hyperscript.Proofs.Number.Rounding

/-! What written numbers denote. Each layout of digits keeps the decimal that it lays out, and
the decimal that is chosen for a number lies in the basin of the number; so the number nearest
to what is written is the number itself, and different numbers are written differently. -/
namespace Hyperscript

namespace Number

/-- Digits as one whole number. -/
abbrev wholeOf (digits : List Char) : Nat := Nat.ofDigitChars 10 digits 0

/-- The power of ten behind a numeral. -/
def powerOf : List Char → Int
  | 'e' :: '-' :: digits => -wholeOf digits
  | 'e' :: '+' :: digits => wholeOf digits
  | 'e' :: digits => wholeOf digits
  | _ => 0

@[simp] theorem powerOf_nil : powerOf [] = 0 := rfl

@[simp] theorem powerOf_plus (digits : List Char) :
    powerOf ('e' :: '+' :: digits) = wholeOf digits := rfl

@[simp] theorem powerOf_minus (digits : List Char) :
    powerOf ('e' :: '-' :: digits) = -wholeOf digits := rfl

/-- The rational that a numeral without a sign denotes: its digits, with as many behind the
point as stand there, times the power of ten. -/
def decimalOf (numeral : List Char) : ℚ :=
  let digits := numeral.takeWhile (· != 'e')
  let whole := digits.takeWhile (· != '.')
  let places := (digits.dropWhile (· != '.')).tail
  wholeOf (whole ++ places) * 10 ^ (powerOf (numeral.dropWhile (· != 'e')) - places.length)

/-- A sign in front negates. -/
def denoted : List Char → ℚ
  | '-' :: numeral => -decimalOf numeral
  | numeral => decimalOf numeral

section Numerals

variable {whole places exponent : List Char}

theorem ne_of_isDigit {c other : Char} (digit : c.isDigit = true)
    (noDigit : other.isDigit = false) : (c != other) = true := by
  rw [bne_iff_ne]
  rintro rfl
  rw [noDigit] at digit
  cases digit

/-- A text is cut at its first mark. -/
theorem cut_append {mark : Char} {front back : List Char}
    (unmarked : ∀ c ∈ front, (c != mark) = true)
    (marked : back = [] ∨ ∃ rest, back = mark :: rest) :
    (front ++ back).takeWhile (· != mark) = front ∧
      (front ++ back).dropWhile (· != mark) = back := by
  rw [List.takeWhile_append_of_pos unmarked, List.dropWhile_append_of_pos unmarked]
  obtain rfl | ⟨rest, rfl⟩ := marked
  · exact ⟨List.append_nil front, rfl⟩
  · simp

/-- A numeral with a point. -/
theorem decimalOf_point (inWhole : ∀ c ∈ whole, c.isDigit = true)
    (inPlaces : ∀ c ∈ places, c.isDigit = true)
    (exponential : exponent = [] ∨ ∃ rest, exponent = 'e' :: rest) :
    decimalOf (whole ++ '.' :: (places ++ exponent)) =
      wholeOf (whole ++ places) * 10 ^ (powerOf exponent - places.length) := by
  have unmarked : ∀ c ∈ whole ++ '.' :: places, (c != 'e') = true := by
    intro c member
    obtain member | member := List.mem_append.mp member
    · exact ne_of_isDigit (inWhole c member) rfl
    obtain rfl | member := List.mem_cons.mp member
    · rfl
    · exact ne_of_isDigit (inPlaces c member) rfl
  obtain ⟨digits, rest⟩ := cut_append unmarked exponential
  obtain ⟨front, back⟩ := @cut_append '.' whole ('.' :: places)
    (fun c member => ne_of_isDigit (inWhole c member) rfl) (.inr ⟨places, rfl⟩)
  unfold decimalOf
  dsimp only
  rw [← List.cons_append, ← List.append_assoc, digits, rest, front, back, List.tail_cons]

theorem decimalOf_whole (inWhole : ∀ c ∈ whole, c.isDigit = true)
    (exponential : exponent = [] ∨ ∃ rest, exponent = 'e' :: rest) :
    decimalOf (whole ++ exponent) = wholeOf whole * 10 ^ powerOf exponent := by
  obtain ⟨digits, rest⟩ := @cut_append 'e' whole exponent
    (fun c member => ne_of_isDigit (inWhole c member) rfl) exponential
  obtain ⟨front, back⟩ := @cut_append '.' whole []
    (fun c member => ne_of_isDigit (inWhole c member) rfl) (.inl rfl)
  rw [List.append_nil] at front back
  unfold decimalOf
  dsimp only
  rw [digits, rest, front, back, List.tail_nil, List.append_nil, List.length_nil, Nat.cast_zero,
    sub_zero]

theorem wholeOf_toDigits (n : Nat) : wholeOf (Nat.toDigits 10 n) = n :=
  Nat.ofDigitChars_toDigits (by decide) (by decide)

theorem decimalOf_toDigits (n : Nat) : decimalOf (Nat.toDigits 10 n) = n := by
  have read := @decimalOf_whole _ [] (Decimal.isDigit_toDigits n) (.inl rfl)
  rwa [List.append_nil, powerOf_nil, zpow_zero, mul_one, wholeOf_toDigits] at read

end Numerals
end Number

namespace Decimal

open Number

variable {decimal : Decimal}

/-- The rational that the digits stand for, the point in front of them moved. -/
def value (decimal : Decimal) : ℚ :=
  wholeOf decimal.digits * 10 ^ (decimal.point - decimal.digits.length)

theorem wholeOf_append_zeros (digits : List Char) (count : Nat) :
    wholeOf (digits ++ List.replicate count '0') = 10 ^ count * wholeOf digits := by
  rw [wholeOf, Nat.ofDigitChars_append, Nat.ofDigitChars_replicate_zero]

theorem wholeOf_zeros_append (count : Nat) (digits : List Char) :
    wholeOf (List.replicate count '0' ++ digits) = wholeOf digits := by
  rw [wholeOf, Nat.ofDigitChars_append, Nat.ofDigitChars_replicate_zero, Nat.mul_zero]

/-- What is dropped of the digits is zeros. -/
theorem exists_toDigits_eq (coefficient : Nat) (exponent : Int) :
    ∃ count, Nat.toDigits 10 coefficient =
      (ofCoefficient coefficient exponent).digits ++ List.replicate count '0' := by
  have zeros : ∀ c ∈ (Nat.toDigits 10 coefficient).reverse.takeWhile (· == '0'), c = '0' := by
    intro c member
    have zero := List.mem_takeWhile_imp member
    exact eq_of_beq zero
  have parts := @List.takeWhile_append_dropWhile _ (· == '0') (Nat.toDigits 10 coefficient).reverse
  have reversed := congrArg List.reverse parts
  rw [List.eq_replicate_of_mem zeros, List.reverse_append, List.reverse_reverse,
    List.reverse_replicate] at reversed
  exact ⟨_, reversed.symm⟩

/-- The zeros that are dropped at the end of the digits are kept by the point. -/
theorem value_ofCoefficient (coefficient : Nat) (exponent : Int) :
    (ofCoefficient coefficient exponent).value = coefficient * 10 ^ exponent := by
  obtain ⟨count, written⟩ := exists_toDigits_eq coefficient exponent
  have digits : (coefficient : ℚ) =
      10 ^ count * wholeOf (ofCoefficient coefficient exponent).digits := by
    have read := wholeOf_toDigits coefficient
    rw [written, wholeOf_append_zeros] at read
    exact_mod_cast read.symm
  have place : (ofCoefficient coefficient exponent).point -
      (ofCoefficient coefficient exponent).digits.length = count + exponent := by
    have length := congrArg List.length written
    rw [List.length_append, List.length_replicate] at length
    change ((Nat.toDigits 10 coefficient).length + exponent : Int) - _ = _
    omega
  rw [value, place, zpow_add₀ (by norm_num), zpow_natCast, digits]
  ring

theorem decimalOf_positional (isDigit : ∀ c ∈ decimal.digits, c.isDigit = true) :
    decimalOf decimal.positional = decimal.value := by
  unfold positional
  dsimp only
  split
  next small =>
    have inPlaces : ∀ c ∈ List.replicate (-decimal.point).toNat '0' ++ decimal.digits,
        c.isDigit = true := by
      refine List.forall_mem_append.mpr ⟨fun c member => ?_, isDigit⟩
      rw [List.eq_of_mem_replicate member]
      rfl
    have read := @decimalOf_point ['0'] _ [] (by simp) inPlaces (.inl rfl)
    have zeros : wholeOf (['0'] ++ (List.replicate (-decimal.point).toNat '0' ++ decimal.digits)) =
        wholeOf decimal.digits := wholeOf_zeros_append ((-decimal.point).toNat + 1) _
    rw [zeros, List.append_nil, List.length_append, List.length_replicate] at read
    refine read.trans ?_
    rw [value, powerOf_nil]
    congr 2
    omega
  next large =>
    split
    next short =>
      have inWhole : ∀ c ∈ decimal.digits ++
          List.replicate (decimal.point.toNat - decimal.digits.length) '0', c.isDigit = true := by
        refine List.forall_mem_append.mpr ⟨isDigit, fun c member => ?_⟩
        rw [List.eq_of_mem_replicate member]
        rfl
      have read := decimalOf_whole inWhole (.inl rfl)
      rw [List.append_nil, wholeOf_append_zeros, powerOf_nil, zpow_zero, mul_one] at read
      rw [read, value, Nat.cast_mul, Nat.cast_pow, mul_comm, ← zpow_natCast, Nat.cast_ofNat]
      congr 2
      omega
    next long =>
      have read := @decimalOf_point (decimal.digits.take decimal.point.toNat)
        (decimal.digits.drop decimal.point.toNat) []
        (fun c member => isDigit c (List.mem_of_mem_take member))
        (fun c member => isDigit c (List.mem_of_mem_drop member)) (.inl rfl)
      rw [List.append_nil, List.take_append_drop, List.length_drop] at read
      rw [read, value, powerOf_nil]
      congr 2
      omega

/-- Scientific notation. -/
theorem decimalOf_significand (isDigit : ∀ c ∈ decimal.digits, c.isDigit = true)
    (nonempty : decimal.digits ≠ []) {exponent : List Char}
    (exponential : ∃ rest, exponent = 'e' :: rest) (power : powerOf exponent = decimal.exponent) :
    decimalOf (decimal.significand ++ exponent) = decimal.value := by
  obtain ⟨first, others, digits⟩ := List.exists_cons_of_ne_nil nonempty
  obtain ⟨isFirst, isOther⟩ := List.forall_mem_cons.mp (digits ▸ isDigit)
  have isSingleton : ∀ c ∈ [first], c.isDigit = true := List.forall_mem_singleton.mpr isFirst
  unfold significand value
  rw [digits]
  cases others with
  | nil =>
    rw [decimalOf_whole isSingleton (.inr exponential), power]
    rfl
  | cons second rest =>
    refine (decimalOf_point isSingleton isOther (.inr exponential)).trans ?_
    rw [power, List.singleton_append, Decimal.exponent]
    congr 2
    push_cast [List.length_cons]
    omega

section Basins

open Binary64

variable {x : Float}

theorem Basin.holds_center (nonzero : steps x ≠ 0) : (Basin.of x).Holds (4 * steps x) := by
  have reach := Basin.reachBelow_pos x
  have gap : 0 < 2 ^ gapLog x := Nat.two_pow_pos _
  have low := Basin.low_of nonzero
  have high := Basin.high_of x
  have inside : (Basin.of x).low < 4 * steps x ∧ 4 * steps x < (Basin.of x).high := by omega
  have cast : ((Basin.of x).low : ℚ) < 4 * steps x ∧ (4 * steps x : ℚ) < (Basin.of x).high := by
    exact_mod_cast inside
  exact ⟨cast.1.le, cast.2.le, fun _ => cast⟩

theorem Basin.Holds.pos {r : ℚ} (inside : (Basin.of x).Holds r) (nonzero : steps x ≠ 0) :
    0 < r := by
  have reach := Basin.reachBelow_le x
  have gap : 2 ^ gapLog x ≤ steps x :=
    Nat.le_of_dvd (Nat.pos_of_ne_zero nonzero) (gap_dvd_steps x)
  have low : 0 < (Basin.of x).low := by
    have sum := Basin.low_of nonzero
    omega
  exact (Nat.cast_pos.mpr low).trans_le inside.1

/-- An expansion to all binary places is exact. -/
theorem expansion_eq {coefficient n places : Nat} (expanded : coefficient = n * Nat.pow 5 places) :
    4 * (2 : ℚ) ^ places * (coefficient * 10 ^ (-(places : Int))) = 4 * n := by
  have tens : (10 : ℚ) ^ places = 2 ^ places * 5 ^ places := by
    rw [← mul_pow]
    norm_num
  rw [zpow_neg, zpow_natCast, tens, expanded, Nat.pow_eq]
  push_cast
  field_simp

/-- The digits that are chosen for a number denote a rational in its basin. -/
theorem holds_shortest (nonzero : steps x ≠ 0) :
    (Basin.of x).Holds (4 * stepsPerOne * (shortest .up x).value) := by
  obtain ⟨coefficient, exponent, found, reason⟩ := (Basin.of x).exists_search .up
    ((Basin.of x).place + 1074).toNat ((Basin.of x).place - 1)
  have same : shortest .up x = ofCoefficient coefficient exponent := found
  rw [same, value_ofCoefficient]
  obtain inside | ⟨expanded, place⟩ := reason
  · exact (Basin.contains_iff _ _ _).mp inside
  · have center : (Basin.of x).center / 4 = steps x := Nat.mul_div_cancel_left _ (by decide)
    rw [center] at expanded
    have exact := expansion_eq expanded
    rw [← cast_stepsPerOne, Nat.cast_ofNat] at exact
    rw [place, exact]
    exact Basin.holds_center nonzero

end Basins
end Decimal

namespace Number

open Binary64 Decimal

variable {x y : Float}

/-- What is written for the magnitude of a number lies in its basin. -/
theorem holds_magnitudeText (finite : isFinite x = true) (nonzero : steps x ≠ 0) :
    (Basin.of x).Holds (4 * stepsPerOne * decimalOf (magnitudeText x)) := by
  have inside := holds_shortest nonzero
  obtain ⟨coefficient, place, decimal, positive, -⟩ := exists_shortest finite nonzero
  obtain ⟨first, rest, digits, -, isDigit⟩ := @digits_ofCoefficient coefficient place positive
  rw [← decimal] at digits
  rw [← digits] at isDigit
  unfold magnitudeText
  dsimp only
  split
  next whole =>
    have multiple := stepsPerOne_dvd_steps (Bool.and_eq_true_iff.mp whole).1
    rw [decimalOf_toDigits, Nat.cast_div multiple stepsPerOne_ne_zero, mul_assoc,
      mul_div_cancel₀ _ stepsPerOne_ne_zero]
    exact Basin.holds_center nonzero
  next =>
    split
    next =>
      have power : powerOf ('e' :: (if (shortest .up x).exponent < 0 then '-' else '+') ::
          Nat.toDigits 10 (shortest .up x).exponent.natAbs) = (shortest .up x).exponent := by
        split
        · rw [powerOf_minus, wholeOf_toDigits]
          omega
        · rw [powerOf_plus, wholeOf_toDigits]
          omega
      rw [decimalOf_significand isDigit (digits ▸ List.cons_ne_nil _ _) ⟨_, rfl⟩ power]
      exact inside
    next =>
      rw [decimalOf_positional isDigit]
      exact inside

theorem IsDecimal.exists_cons {numeral whole fraction exponent : List Char}
    (decimal : IsDecimal numeral whole fraction exponent) :
    ∃ first rest, numeral = first :: rest ∧ first.isDigit = true := by
  obtain ⟨first, rest, rfl⟩ := List.exists_cons_of_ne_nil decimal.nonempty
  exact ⟨first, _, decimal.text, decimal.digits first List.mem_cons_self⟩

/-- Without its sign a number begins with a digit. -/
theorem exists_cons_unsigned (finite : isFinite x = true) :
    ∃ first rest, unsigned x = first :: rest ∧ first.isDigit = true := by
  obtain ⟨whole, fraction, exponent, decimal, -⟩ := exists_isDecimal_unsigned finite
  exact decimal.exists_cons

/-- What is written for a number denotes its digits, with its sign. -/
theorem denoted_text (finite : isFinite x = true) :
    denoted (text x).toList = signed (isBelowZero x) (decimalOf (unsigned x)) := by
  rw [toList_text]
  cases isBelowZero x with
  | true => rfl
  | false =>
    obtain ⟨first, rest, isUnsigned, digit⟩ := exists_cons_unsigned finite
    change denoted (unsigned x) = decimalOf (unsigned x)
    rw [isUnsigned]
    unfold denoted
    split
    next same =>
      cases same
      cases digit
    next => rfl

theorem value_eq_zero_iff (finite : isFinite x = true) : value x = 0 ↔ steps x = 0 := by
  rw [value_eq_signed finite, signed]
  split
  · rw [neg_eq_zero, div_eq_zero_iff, or_iff_left stepsPerOne_ne_zero, Nat.cast_eq_zero]
  · rw [div_eq_zero_iff, or_iff_left stepsPerOne_ne_zero, Nat.cast_eq_zero]

theorem isNearest_zero (finite : isFinite x = true) (zero : steps x = 0) : IsNearest 0 x := by
  have noValue : value x = 0 := (value_eq_zero_iff finite).mpr zero
  refine ⟨finite, ?_, fun y _ => ?_, fun y _ _ _ => ?_⟩
  · rw [abs_zero, sub_pos]
    exact pow_lt_pow_right₀ (by norm_num) (by decide)
  · rw [noValue, sub_zero, abs_zero]
    exact abs_nonneg _
  · rw [steps_eq] at zero
    have none : significand x = 0 := (Nat.mul_eq_zero.mp zero).resolve_right (Nat.two_pow_pos _).ne'
    rw [none]

/-- A finite number is the nearest to what is written for it. -/
theorem isNearest_text (finite : isFinite x = true) : IsNearest (denoted (text x).toList) x := by
  rw [denoted_text finite, unsigned, if_pos finite]
  by_cases zero : isZero x = true
  · have none : decimalOf ['0'] = 0 := by
      rw [← List.append_nil ['0'], decimalOf_whole (by simp) (.inl rfl)]
      exact zero_mul _
    have below : isBelowZero x = false := by simp [isBelowZero, zero]
    rw [if_pos zero, below, signed, if_neg Bool.false_ne_true, none]
    exact isNearest_zero finite ((isZero_eq_true_iff finite).mp zero)
  · have nonzero : steps x ≠ 0 := fun none => zero ((isZero_eq_true_iff finite).mpr none)
    have below : isBelowZero x = signBit x := by simp [isBelowZero, zero, isNaN, finite]
    have inside := holds_magnitudeText finite nonzero
    have positive := inside.pos nonzero
    rw [mul_pos_iff_of_pos_left quarters_pos] at positive
    rw [if_neg zero, below]
    exact isNearest_of_holds finite nonzero positive inside

/-- Different numbers are written differently, but for the two zeros. -/
theorem text_ne (finiteX : isFinite x = true) (finiteY : isFinite y = true) (different : x ≠ y)
    (notZeros : ¬(isZero x = true ∧ isZero y = true)) : text x ≠ text y := by
  intro same
  have nearX := isNearest_text finiteX
  rw [same] at nearX
  have sameValue : value x = value y := nearX.value_eq (isNearest_text finiteY)
  refine different (eq_of_value finiteX finiteY sameValue fun none => absurd ?_ notZeros)
  have noneY : steps y = 0 := by
    rw [← value_eq_zero_iff finiteY, ← sameValue, value_eq_zero_iff finiteX]
    exact none
  exact ⟨(isZero_eq_true_iff finiteX).mpr none, (isZero_eq_true_iff finiteY).mpr noneY⟩

/-- A literal shows the text of its number: brackets stand around a sign, and around nothing
else. -/
theorem text_eq_of_literal (finiteX : isFinite x = true) (finiteY : isFinite y = true)
    (same : Expression.literal (.number x) = Expression.literal (.number y)) :
    text x = text y := by
  have unbracketed {z : Float} {inner : List Char} (finite : isFinite z = true)
      (positive : isBelowZero z = false) : '(' :: inner ≠ (text z).toList := by
    obtain ⟨first, rest, isUnsigned, digit⟩ := exists_cons_unsigned finite
    rw [toList_text, positive, isUnsigned]
    rintro ⟨⟩
    cases digit
  have sameList := congrArg String.toList same
  unfold Expression.literal at sameList
  cases belowX : isBelowZero x <;> cases belowY : isBelowZero y <;>
    simp only [belowX, belowY, if_true, if_false, Bool.false_eq_true, String.toList_append,
      String.reduceToList, List.singleton_append] at sameList
  · exact String.toList_injective sameList
  · exact absurd sameList.symm (unbracketed finiteX belowX)
  · exact absurd sameList (unbracketed finiteY belowY)
  · rw [List.cons_append, List.cons_append, List.cons_inj_right, List.append_left_inj] at sameList
    exact String.toList_injective sameList

theorem text_eq_of_limited {helper handler : String}
    (same : Listener.limited helper handler x = Listener.limited helper handler y) :
    text x = text y := by
  have sameList := congrArg String.toList same
  simp only [Listener.limited, String.toList_append, List.append_assoc, List.append_right_inj,
    List.append_left_inj] at sameList
  exact String.toList_injective sameList

/-- The number nearest to what is written for a number is that number. So no other number has
the same text, nor the same literal, nor the same delay in the call of a helper. -/
theorem text_denotes (finite : isFinite x = true) (nonzero : isZero x = false) :
    (∃ numeral whole fraction exponent,
      (text x).toList = (if signBit x then ['-'] else []) ++ numeral ∧
        IsDecimal numeral whole fraction exponent) ∧
      (∀ y, IsNearest (denoted (text x).toList) y ↔ y = x) ∧
      ∀ y, isFinite y = true → y ≠ x →
        text y ≠ text x ∧ Expression.literal (.number y) ≠ Expression.literal (.number x) ∧
          ∀ helper handler,
            Listener.limited helper handler y ≠ Listener.limited helper handler x := by
  obtain ⟨whole, fraction, exponent, decimal, -⟩ := exists_isDecimal_unsigned finite
  have below : isBelowZero x = signBit x := by simp [isBelowZero, nonzero, isNaN, finite]
  have near := isNearest_text finite
  have stepsX : steps x ≠ 0 := by
    rw [ne_eq, ← isZero_eq_true_iff finite, nonzero]
    exact Bool.false_ne_true
  refine ⟨⟨_, whole, fraction, exponent, ?_, decimal⟩, fun y => ⟨fun nearY => ?_, ?_⟩,
    fun y finiteY different => ?_⟩
  · rw [toList_text, below]
    cases signBit x <;> rfl
  · exact (eq_of_value finite nearY.finite (near.value_eq nearY) (absurd · stepsX)).symm
  · rintro rfl
    exact near
  · have texts : text y ≠ text x := text_ne finiteY finite different (by simp [nonzero])
    exact ⟨texts, fun same => texts (text_eq_of_literal finiteY finite same),
      fun helper handler same => texts (text_eq_of_limited same)⟩

theorem text_denotes_threeTenths :
    isFinite 0.3 = true ∧ isZero 0.3 = false ∧ isFinite (0.1 + 0.2) = true ∧
      (∀ y, IsNearest (denoted "0.3".toList) y ↔ y = 0.3) ∧ text (0.1 + 0.2) ≠ text 0.3 := by
  have finite : isFinite 0.3 = true := by decide +kernel
  have nonzero : isZero 0.3 = false := by decide +kernel
  have finiteSum : isFinite (0.1 + 0.2) = true := by decide +kernel
  have different : (0.1 + 0.2 : Float) ≠ 0.3 := by
    intro same
    have sameSteps := congrArg steps same
    revert sameSteps
    decide +kernel
  have written : text 0.3 = "0.3" := by decide +kernel
  obtain ⟨-, near, others⟩ := text_denotes finite nonzero
  rw [written] at near
  exact ⟨finite, nonzero, finiteSum, near, (others _ finiteSum different).1⟩

end Number
end Hyperscript
