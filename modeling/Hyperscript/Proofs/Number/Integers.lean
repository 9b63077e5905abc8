import Hyperscript.Json.Basic
import Mathlib.Algebra.Group.Nat.Defs

/-! Integers of 64 bits as binary64 numbers. The exponent of a rounded number is not far above that
of the exact one, so the number of such an integer is finite. The bounds are rough: all that
matters is that they stay below the exponent of the infinities. -/
namespace Hyperscript.Binary64

open Float.Model Float.Model.UnpackedFloat

/-- A finite number with a mantissa of so many bits and an exponent within the limit. -/
inductive Fits (bits : Nat) (limit : Int) : UnpackedFloat → Prop where
  | zero (sign : Sign) : Fits bits limit (.zero sign)
  | finite (sign : Sign) {mantissa : Nat} {exponent : Int} (positive : 0 < mantissa)
    (below : mantissa < 2 ^ bits) (within : exponent ≤ limit) :
    Fits bits limit (.finite sign mantissa exponent positive)

section Rounding

variable {mantissa bits : Nat} {exponent limit : Int}

theorem log2_le (below : mantissa < 2 ^ (bits + 1)) : mantissa.log2 ≤ bits := by
  by_cases zero : mantissa = 0
  · simp [zero]
  · exact Nat.le_of_lt_succ ((Nat.log2_lt zero).mpr below)

theorem mantissa_shiftRight_le (extended : ExtendedMantissa) (places : Nat) :
    (extended >>> places).mantissa ≤ extended.mantissa := by
  change (places.repeat ExtendedMantissa.shiftRightOne extended).mantissa ≤ _
  induction places with
  | zero => exact Nat.le_refl _
  | succ places ih => exact Nat.le_trans (Nat.div_le_self _ 2) ih

theorem roundedMantissa_le (extended : ExtendedMantissa) :
    extended.roundedMantissa ≤ extended.mantissa + 1 := by
  unfold ExtendedMantissa.roundedMantissa Accuracy.roundToNearestEven
  split <;> omega

theorem mantissa_shiftToTargetExponent_le :
    (shiftToTargetExponent .binary64 mantissa exponent .exact).1.mantissa ≤ mantissa :=
  mantissa_shiftRight_le _ _

theorem exponent_shiftToTargetExponent_le (below : mantissa < 2 ^ (bits + 1))
    (within : exponent ≤ limit) (nonneg : 0 ≤ limit) :
    (shiftToTargetExponent .binary64 mantissa exponent .exact).2 ≤ limit + bits := by
  have log := log2_le below
  have least : Format.binary64.minExponent = -1074 := by decide
  have width : Format.binary64.mantissaBits = 53 := rfl
  simp only [shiftToTargetExponent, shiftToExponent, Format.targetExponent, totalExponent, least,
    width]
  omega

theorem Fits.dite {condition : Prop} [Decidable condition] {x : condition → UnpackedFloat}
    {y : ¬ condition → UnpackedFloat} (first : ∀ holds, Fits bits limit (x holds))
    (second : ∀ fails, Fits bits limit (y fails)) :
    Fits bits limit (if holds : condition then x holds else y holds) := by
  by_cases holds : condition
  · rw [dif_pos holds]
    exact first holds
  · rw [dif_neg holds]
    exact second holds

theorem fits_roundWithAccuracy (sign : Sign) (below : mantissa < 2 ^ (bits + 1))
    (within : exponent ≤ limit) (nonneg : 0 ≤ limit) :
    Fits (bits + 2) (limit + (2 * bits + 1))
      (roundWithAccuracy .binary64 sign mantissa exponent .exact) := by
  have shifted := exponent_shiftToTargetExponent_le below within nonneg
  have rounded : (shiftToTargetExponent .binary64 mantissa exponent .exact).1.roundedMantissa <
      2 ^ (bits + 2) := by
    have up := roundedMantissa_le (shiftToTargetExponent .binary64 mantissa exponent .exact).1
    have down := @mantissa_shiftToTargetExponent_le mantissa exponent
    have double : 2 ^ (bits + 2) = 2 * 2 ^ (bits + 1) := Nat.pow_succ'
    omega
  have shiftedAgain := exponent_shiftToTargetExponent_le rounded shifted (by omega)
  unfold roundWithAccuracy
  dsimp only
  refine .dite (fun _ => .zero sign) fun _ => .finite sign _ ?_ (by omega)
  exact Nat.lt_of_le_of_lt mantissa_shiftToTargetExponent_le rounded

theorem fits_mul {x y : UnpackedFloat} {bits₁ bits₂ : Nat} {limit₁ limit₂ : Int}
    (left : Fits bits₁ limit₁ x) (right : Fits bits₂ limit₂ y) (width : bits₁ + bits₂ = bits + 1)
    (within : limit₁ + limit₂ ≤ limit) (nonneg : 0 ≤ limit) :
    Fits (bits + 2) (limit + (2 * bits + 1)) (UnpackedFloat.mul .binary64 x y) := by
  cases left with
  | zero =>
    cases right with
    | zero | finite => exact .zero _
  | finite sign₁ positive₁ below₁ within₁ =>
    cases right with
    | zero => exact .zero _
    | finite sign₂ positive₂ below₂ within₂ =>
      refine fits_roundWithAccuracy _ ?_ (by omega) nonneg
      rw [← width, Nat.pow_add]
      exact Nat.mul_lt_mul'' below₁ below₂

theorem fits_neg {x : UnpackedFloat} (fits : Fits bits limit x) : Fits bits limit x.neg := by
  cases fits with
  | zero => exact .zero _
  | finite sign positive below within => exact .finite _ positive below within

/-- An integer is brought to a mantissa of 53 bits before it is rounded. -/
theorem fits_ofNat {n : Nat} (below : n < 2 ^ 64) :
    Fits 117 231 (UnpackedFloat.ofNat .binary64 n) := by
  unfold UnpackedFloat.ofNat UnpackedFloat.ofInt UnpackedFloat.normalize
  split
  · next negative => exact absurd (Int.compare_eq_lt.mp negative) (by omega)
  · exact .zero _
  · have least : Format.binary64.minExponent = -1074 := by decide
    have width : Format.binary64.mantissaBits = 53 := rfl
    simp only [Int.toNat_natCast, UnpackedFloat.round, decreaseExponent, Format.targetExponent,
      totalExponent, least, width]
    generalize isShift : (0 - max ((n.log2 : Int) + 1 + 0 - (53 : Nat)) (-1074)).toNat = shift
    have shifted : n <<< shift < 2 ^ (115 + 1) := by
      have few : 2 ^ shift ≤ 2 ^ 52 := Nat.pow_le_pow_right (by omega) (by omega)
      rw [Nat.shiftLeft_eq]
      exact Nat.lt_of_lt_of_le (Nat.mul_lt_mul_of_pos_right below (Nat.two_pow_pos _))
        (Nat.mul_le_mul_left _ few)
    exact @fits_roundWithAccuracy _ _ _ 0 .positive shifted (by omega) (by omega)

/-- Larger integers are multiplied by one exactly. -/
theorem fits_ofScientific {n : Nat} (below : n < 2 ^ 64) :
    Fits 119 235 (UnpackedFloat.ofScientific .binary64 n 0) := by
  by_cases zero : n = 0
  · rw [UnpackedFloat.ofScientific, dif_pos zero]
    exact .zero _
  · have shifted : n <<< 53 < 2 ^ 117 := by
      rw [Nat.shiftLeft_eq]
      omega
    have positive : 0 < n <<< 53 := by
      rw [Nat.shiftLeft_eq]
      omega
    have integer : Fits 117 (-53) _ := .finite .positive positive shifted (Int.le_refl _)
    have one : Fits 1 0 _ := .finite .positive Nat.one_pos Nat.one_lt_two (Int.le_refl _)
    have moderate : (0 : Int) ≤ 2 ^ Format.binary64.exponentBits := by decide
    rw [UnpackedFloat.ofScientific, dif_neg zero, if_neg (by decide), if_neg (by omega),
      if_pos (by decide)]
    exact fits_mul integer one rfl (by omega) (Int.le_refl 0)

end Rounding

theorem exponentField_eq (x : Float) :
    exponentField x = (@unpackExponent .binary64 x.toModel.toBits.toBitVec).toNat := by
  simp [exponentField, unpackExponent, BitVec.extractLsb', BitVec.extractLsb,
    Nat.shiftRight_eq_div_pow]
  rfl

/-- Packing keeps the exponent, unless the number is too small for one. -/
theorem exponentField_pack_le {x : UnpackedFloat} {bits : Nat} {limit : Int}
    (fits : Fits bits limit x) (nonneg : 0 ≤ limit) (small : limit ≤ 900) :
    (exponentField ⟨.pack x⟩ : Int) ≤ limit + 1075 := by
  rw [exponentField_eq]
  change ((@unpackExponent .binary64 (UnpackedFloat.pack .binary64 x)).toNat : Int) ≤ _
  have bias : Format.binary64.exponentBias = 1023 := rfl
  unfold UnpackedFloat.pack
  cases fits with
  | zero sign =>
    have none : (0 : BitVec Format.binary64.exponentBits).toNat = 0 := rfl
    dsimp only
    rw [packedZero, unpackExponent_packComponents]
    omega
  | finite sign positive below within =>
    dsimp only
    rw [bias]
    split
    · omega
    · split
      · rw [unpackExponent_packComponents, BitVec.toNat_ofNat]
        omega
      · rw [unpackExponent_packComponents, BitVec.toNat_ofNat]
        omega

/-- A finite number has a mantissa of 53 bits. -/
theorem fits_unpack {x : Float} {field : Nat} (within : exponentField x ≤ field)
    (finite : field < 2047) : Fits 53 (field - 1074) x.toModel.unpack := by
  rw [exponentField_eq] at within
  have bias : Format.binary64.exponentBias = 1023 := rfl
  have fits := (@unpackMantissa .binary64 x.toModel.toBits.toBitVec).isLt
  unfold Float.Model.unpack UnpackedFloat.unpack
  dsimp only
  refine .dite (fun infinite => ?_) fun _ => .dite (fun _ => .dite ?_ ?_) ?_
  · rw [infinite] at within
    exact absurd within (Nat.not_le.mpr finite)
  · exact fun _ => .zero _
  · exact fun _ => .finite _ _ (Nat.lt_trans fits (by decide)) (by omega)
  · exact fun _ => .finite _ _ (BitVec.isLt _) (by omega)

theorem exponentField_neg_le {x : Float} {field : Nat} (within : exponentField x ≤ field)
    (small : field ≤ 1900) : exponentField (-x) ≤ max field 1074 + 1 := by
  have fits := fits_neg (fits_unpack (Nat.le_trans within (Nat.le_max_left field 1074)) (by omega))
  have packed := exponentField_pack_le fits (by omega) (by omega)
  change exponentField ⟨.pack x.toModel.unpack.neg⟩ ≤ _
  omega

theorem exponentField_ofNat_le {n : Nat} (below : n < 2 ^ 64) :
    exponentField (.ofNat n) ≤ 1700 := by
  change exponentField (Float.ofScientific n false 0) ≤ _
  unfold Float.ofScientific
  split
  · have isOne : exponentField Float.exactlyRepresentablePowersOfTen[0] ≤ 1023 := by decide
    have converted := exponentField_pack_le (fits_ofNat n.toUInt64.toNat_lt) (by omega) (by omega)
    have within : exponentField n.toUInt64.toFloat ≤ 1306 := Int.ofNat_le.mp converted
    have product := fits_mul (fits_unpack within (by omega)) (fits_unpack isOne (by omega)) rfl
      (Int.le_refl _) (by omega)
    have packed := exponentField_pack_le product (by omega) (by omega)
    exact Int.ofNat_le.mp (Int.le_trans packed (by omega))
  · have packed := exponentField_pack_le (fits_ofScientific below) (by omega) (by omega)
    dsimp only
    rw [if_neg (by decide)]
    change exponentField ⟨.pack (UnpackedFloat.ofScientific .binary64 n 0)⟩ ≤ _
    omega

theorem isFinite_floatOfInt {n : Int} (below : n.natAbs < 2 ^ 64) :
    isFinite (Json.floatOfInt n) = true := by
  have within := exponentField_ofNat_le below
  unfold isFinite Json.floatOfInt
  split
  · have negated := exponentField_neg_le within (by omega)
    simp only [decide_eq_true_eq]
    omega
  · simp only [decide_eq_true_eq]
    omega

end Hyperscript.Binary64
