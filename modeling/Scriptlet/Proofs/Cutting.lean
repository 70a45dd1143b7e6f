import Mathlib
import Scriptlet.Proofs.Rounding

/-! # Numbers cut to 32 bits

A number is cut toward zero and held within 32 bits. Every integer of 32 bits is a double, so what
is cut once is not changed by cutting it again.

* `saturated`: the integer of 32 bits next to a number.
* `toInt32_eq_saturated`: numbers are cut to it.
* `rational?_nearest`: integers of at most 53 bits are kept exactly. -/

namespace Scriptlet.Decimal

open Float.Model (UnpackedFloat)
open Float.Model.UnpackedFloat (Sign)

/-! ## Cutting toward zero -/

/-- The integer next to a rational number in the direction of zero. -/
def truncate (value : ℚ) : Int :=
  if 0 ≤ value then ⌊value⌋ else ⌈value⌉

/-- The integer of 32 bits for a number: what is finite is cut toward zero and held within the
bounds, an infinity becomes the bound on its side, and what is not a number becomes zero. -/
def saturated (number : Float) : Int :=
  match rational? number with
  | some value => max (-2 ^ 31) (min (2 ^ 31 - 1) (truncate value))
  | none => if number.isNaN then 0 else if 0 < number then 2 ^ 31 - 1 else -2 ^ 31

/-- The whole part of a mantissa with an exponent is the floor of the number they make. -/
theorem wholePart_eq (mantissa : Nat) (exponent : Int) :
    (wholePart mantissa exponent : Int) = ⌊(mantissa : ℚ) * 2 ^ exponent⌋ := by
  have hvalue : (mantissa : ℚ) * 2 ^ exponent =
      (mantissa * 2 ^ exponent.toNat : Nat) / (2 ^ (-exponent).toNat : Nat) := by
    rw [eq_div_iff (by positivity)]
    push_cast
    rw [mul_assoc, ← zpow_natCast, ← zpow_natCast, ← zpow_add₀ (by norm_num)]
    congr 2
    omega
  rw [hvalue, Rat.floor_natCast_div_natCast]
  rfl

/-- To cut a signed number towards zero is to cut its magnitude and keep the sign. -/
theorem truncate_apply {mantissa : Nat} (hpos : 0 < mantissa) (exponent : Int) (sign : Sign) :
    truncate (((sign.apply mantissa : Int) : ℚ) * 2 ^ exponent) =
      sign.apply (wholePart mantissa exponent) := by
  have hvalue : (0 : ℚ) < mantissa * 2 ^ exponent :=
    mul_pos (by exact_mod_cast hpos) (two_zpow_pos exponent)
  rw [wholePart_eq]
  cases sign with
  | positive => simp [Sign.apply, truncate, hvalue.le]
  | negative => simp [Sign.apply, truncate, hvalue.not_ge, Int.ceil_neg]

/-- Cutting toward zero keeps the order. -/
theorem truncate_mono : Monotone truncate := by
  intro left right hle
  unfold truncate
  split
  · rename_i hleft
    rw [if_pos (hleft.trans hle)]
    exact Int.floor_mono hle
  · rename_i hleft
    split
    · rename_i hright
      -- zero lies in between
      exact (Int.ceil_le.2 (by exact_mod_cast (not_le.1 hleft).le)).trans (Int.floor_nonneg.2 hright)
    · exact Int.ceil_mono hle

/-- Integers are not changed by cutting. -/
theorem truncate_intCast (value : Int) : truncate value = value := by
  simp [truncate]

/-- What is cut and then held within 32 bits is a bound just if it was at or beyond that bound
before. -/
theorem clampInt32_truncate (value : ℚ) :
    clampInt32 (truncate value) =
      if (int32Max : ℚ) ≤ value then int32Max
      else if value ≤ (int32Min : ℚ) then int32Min
      else truncate value := by
  unfold clampInt32
  split
  · rename_i hmax
    have hle := truncate_mono hmax
    rw [truncate_intCast] at hle
    rw [min_eq_left hle, max_eq_right (by decide)]
  · rename_i hmax
    split
    · rename_i hmin
      have hle := truncate_mono hmin
      rw [truncate_intCast] at hle
      rw [min_eq_right (hle.trans (by decide)), max_eq_left hle]
    · rename_i hmin
      -- between the bounds the whole part has 32 bits
      have hle := truncate_mono (not_le.1 hmax).le
      have hge := truncate_mono (not_le.1 hmin).le
      rw [truncate_intCast] at hle hge
      rw [min_eq_right hle, max_eq_right hge]

/-- The integer of a number is cut towards zero and held in the range of words. -/
theorem toInt32_eq_saturated (number : Float) : toInt32 number = saturated number := by
  cases hparts : number.toModel.unpack with
  | notANumber =>
    rw [eq_ofModel_pack hparts]
    decide
  | infinity sign =>
    rw [eq_ofModel_pack hparts]
    cases sign <;> decide
  | zero sign =>
    rw [eq_ofModel_pack hparts]
    cases sign <;> decide
  | finite sign mantissa exponent hpos =>
    simp only [saturated, rational?_of_unpack hparts, toInt32, hparts, truncate_apply hpos]
    rfl

/-- What is held within 32 bits has 32 bits. -/
theorem clampInt32_bounds (value : Int) :
    int32Min ≤ clampInt32 value ∧ clampInt32 value ≤ int32Max := by
  unfold clampInt32 int32Min int32Max
  omega

/-- Every number is cut to an integer of 32 bits, also what is infinite or not a number. -/
theorem toInt32_bounds (number : Float) :
    int32Min ≤ toInt32 number ∧ toInt32 number ≤ int32Max := by
  unfold toInt32
  -- what is infinite or not a number has a fixed status of its own
  split
  · decide
  · decide
  · decide
  · decide
  · exact clampInt32_bounds _

/-! ## Integers as numbers -/

/-- Integers other than zero of at most 53 bits are rounded to themselves. -/
theorem normalize_of_lt {value : Int} (hzero : value ≠ 0) (hlt : value.natAbs < 2 ^ 53) :
    ∃ sign mantissa exponent, ∃ hdouble : IsDouble mantissa exponent,
      UnpackedFloat.normalize .binary64 value 0 .positive =
        .finite sign mantissa exponent hdouble.pos ∧
      ((sign.apply mantissa : Int) : ℚ) * 2 ^ exponent = value := by
  obtain ⟨mantissa, exponent, hdouble, hvalue⟩ := exists_isDouble (by omega) hlt
  have hrounds := hdouble.roundsTo
  rw [hvalue, ← mul_one (value.natAbs : ℚ), ← zpow_zero 2] at hrounds
  unfold UnpackedFloat.normalize
  -- rounding keeps every mantissa of less than fifty-four bits, whatever the sign
  rcases lt_trichotomy value 0 with hneg | heq | hpos
  · have hsize : (-value).toNat = value.natAbs := by omega
    have hcast : ((value.natAbs : Nat) : ℚ) = -(value : ℚ) := by
      rw [Nat.cast_natAbs, abs_of_neg hneg, Int.cast_neg]
    rw [Int.compare_eq_lt.2 hneg]
    refine ⟨.negative, mantissa, exponent, hdouble, ?_, ?_⟩
    · rw [hsize]
      exact round_of_roundsTo hrounds hdouble _
    · rw [Sign.apply, Int.cast_neg, Int.cast_natCast, neg_mul, hvalue, hcast, neg_neg]
  · exact absurd heq hzero
  · have hsize : value.toNat = value.natAbs := by omega
    have hcast : ((value.natAbs : Nat) : ℚ) = (value : ℚ) := by
      rw [Nat.cast_natAbs, abs_of_pos hpos]
    rw [Int.compare_eq_gt.2 hpos]
    refine ⟨.positive, mantissa, exponent, hdouble, ?_, ?_⟩
    · rw [hsize]
      exact round_of_roundsTo hrounds hdouble _
    · rw [Sign.apply, Int.cast_natCast, hvalue, hcast]

/-- Integers of at most 53 bits are doubles. -/
theorem rational?_nearest {value : Int} (h : value.natAbs < 2 ^ 53) :
    rational? (nearest value) = some (value : ℚ) := by
  by_cases hzero : value = 0
  · rw [hzero]
    decide
  · obtain ⟨sign, mantissa, exponent, hdouble, hround, hvalue⟩ := normalize_of_lt hzero h
    rw [rational?_of_unpack, hvalue]
    rw [nearest, hround]
    exact (IsUnpacked.finite sign hdouble).unpack_pack

/-- An integer in the range of words comes back from its nearest double. -/
theorem toInt32_nearest {value : Int} (hlow : -2 ^ 31 ≤ value) (hhigh : value < 2 ^ 31) :
    toInt32 (nearest value) = value := by
  simp only [toInt32_eq_saturated, saturated, rational?_nearest (by omega : value.natAbs < 2 ^ 53),
    truncate_intCast]
  omega

end Scriptlet.Decimal
