import Hyperscript.Number.Text
import Hyperscript.Proofs.Text.Tokens

/-! Numbers as code. A number is written with digits, a point and an exponent, or is one of
three words; so it holds no quote, no bracket and no keyword. -/
namespace Hyperscript.Number

open Text

/-- The characters of numbers that have digits. -/
def isNumeral (c : Char) : Bool := c.isDigit || ['.', 'e', '+', '-'].contains c

theorem isNumeral_toDigits (n : Nat) : ∀ c ∈ Nat.toDigits 10 n, isNumeral c = true := by
  intro c member
  simp [isNumeral, Nat.isDigit_of_mem_toDigits (by decide) (by decide) member]

theorem isNumeral_ofCoefficient (coefficient : Nat) (exponent : Int) :
    ∀ c ∈ (Decimal.ofCoefficient coefficient exponent).digits, isNumeral c = true := by
  intro c member
  have inside := (List.dropWhile_suffix _).subset (List.mem_reverse.mp member)
  exact isNumeral_toDigits coefficient c (List.mem_reverse.mp inside)

theorem isNumeral_search (basin : Decimal.Basin) (tie : Decimal.Tie) (fuel : Nat) (exponent : Int) :
    ∀ c ∈ (basin.search tie fuel exponent).digits, isNumeral c = true := by
  induction fuel generalizing exponent with
  | zero => exact isNumeral_ofCoefficient _ _
  | succ fuel ih =>
    rw [Decimal.Basin.search]
    split
    · exact isNumeral_ofCoefficient _ _
    · exact ih _

theorem isNumeral_positional {decimal : Decimal}
    (digits : ∀ c ∈ decimal.digits, isNumeral c = true) :
    ∀ c ∈ decimal.positional, isNumeral c = true := by
  have zeros (count : Nat) : ∀ c ∈ List.replicate count '0', isNumeral c = true := by
    intro c member
    rw [List.eq_of_mem_replicate member]
    decide
  unfold Decimal.positional
  split
  · refine List.forall_mem_append.mpr ⟨?_, digits⟩
    exact List.forall_mem_cons.mpr ⟨by decide, List.forall_mem_cons.mpr ⟨by decide, zeros _⟩⟩
  · dsimp only
    split
    · exact List.forall_mem_append.mpr ⟨digits, zeros _⟩
    · refine List.forall_mem_append.mpr ⟨fun c member => digits c (List.mem_of_mem_take member), ?_⟩
      exact List.forall_mem_cons.mpr
        ⟨by decide, fun c member => digits c (List.mem_of_mem_drop member)⟩

theorem isNumeral_significand {decimal : Decimal}
    (digits : ∀ c ∈ decimal.digits, isNumeral c = true) :
    ∀ c ∈ decimal.significand, isNumeral c = true := by
  unfold Decimal.significand
  split
  next first second rest same =>
    rw [same] at digits
    simp only [List.forall_mem_cons] at digits ⊢
    exact ⟨digits.1, by decide, digits.2⟩
  next => exact digits

theorem isNumeral_magnitudeText (x : Float) : ∀ c ∈ magnitudeText x, isNumeral c = true := by
  have digits := isNumeral_search (.of x) .up ((Decimal.Basin.of x).place + 1074).toNat
    ((Decimal.Basin.of x).place - 1)
  unfold magnitudeText
  dsimp only
  split
  · exact isNumeral_toDigits _
  · split
    · refine List.forall_mem_append.mpr ⟨isNumeral_significand digits, ?_⟩
      refine List.forall_mem_cons.mpr
        ⟨by decide, List.forall_mem_cons.mpr ⟨?_, isNumeral_toDigits _⟩⟩
      split <;> decide
    · exact isNumeral_positional digits

/-- A number has digits, or is one of three words. -/
theorem isNumeral_text (x : Float) :
    text x ∈ ["NaN", "Infinity", "-Infinity"] ∨ ∀ c ∈ (text x).toList, isNumeral c = true := by
  have digits := isNumeral_magnitudeText x
  unfold text
  split_ifs
  · exact .inl (by decide)
  · exact .inl (by decide)
  · exact .inl (by decide)
  · exact .inr (List.all_eq_true.mp (by decide))
  · right
    rw [String.toList_ofList]
    exact List.forall_mem_cons.mpr ⟨by decide, digits⟩
  · right
    rw [String.toList_ofList]
    exact digits

theorem isPlain_of_isNumeral {text : String} (numeral : ∀ c ∈ text.toList, isNumeral c = true) :
    IsPlain text := by
  have absent (c : Char) (other : isNumeral c = false) : c ∉ text.toList := by
    intro member
    simp [numeral c member] at other
  refine ⟨spells_unquoted ?_ (absent '"' (by decide)), ?_⟩
  · intro c member
    constructor
    · rintro rfl
      exact absent _ (by decide) member
    · rintro rfl
      exact absent _ (by decide) member
  · intro token member
    have shown := characters_subset token member
    cases token with
    | word word =>
      refine ⟨Bool.eq_false_iff.mpr fun keyword => ?_, rfl⟩
      have letters : ∀ word ∈ reservedWords, word.toList.any (!isNumeral ·) = true := by decide
      obtain ⟨reserved, _⟩ := (Bool.and_eq_true _ _).mp keyword
      obtain ⟨c, inside, other⟩ :=
        List.any_eq_true.mp (letters word (List.contains_iff_mem.mp reserved))
      exact absent c ((Bool.not_eq_true' _).mp other) (shown inside)
    | literal => exact ⟨rfl, rfl⟩
    | mark c =>
      refine ⟨rfl, Bool.eq_false_iff.mpr fun bracket => ?_⟩
      have brackets : ∀ c ∈ ['(', '[', '\x7b', ')', ']', '\x7d'], (!isNumeral c) = true :=
        List.all_eq_true.mp (by decide)
      have inside : c ∈ text.toList := shown (by simp [Token.characters])
      have other := brackets c (List.contains_iff_mem.mp bracket)
      exact absent c ((Bool.not_eq_true' _).mp other) inside

theorem isPlain_text (x : Float) : IsPlain (text x) := by
  rcases isNumeral_text x with word | numeral
  · have plain : ∀ word ∈ ["NaN", "Infinity", "-Infinity"], IsPlain word := by decide
    exact plain _ word
  · exact isPlain_of_isNumeral numeral

end Hyperscript.Number
