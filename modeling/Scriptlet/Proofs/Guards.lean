import Mathlib
import Scriptlet.Proofs.Comparison
import Scriptlet.Proofs.Cutting
import Scriptlet.Value.Guarded

/-! # Guards suffice

The primitives of arithmetic and comparison break down on some operands. Behind the guards of the
operators they are never asked for such operands, so no operator breaks down, and each makes of its
operands what the total operation makes of them.

* `guardedQuotient_eq`, `guardedRemainder_eq`, `guardedInt32_eq`, `guardedCompare_eq`: each guarded
  operation has an answer, which is that of the total one.
* `guarded_eq`: so does each operator, on any two values. -/

namespace Scriptlet

namespace Decimal

open Float.Model (UnpackedFloat)
open Float.Model.UnpackedFloat (Sign)

variable {number : Float}

/-! ## Quotients and remainders -/

/-- Only the two zeros are equal to zero. -/
theorem unpack_of_beq_zero (h : (number == 0) = true) :
    ∃ sign, number.toModel.unpack = .zero sign := by
  rw [Value.number_beq_iff] at h
  have hzero : (0 : Float).toModel.unpack = .zero .positive := rfl
  rw [hzero] at h
  cases hparts : number.toModel.unpack with
  | notANumber =>
    rw [hparts] at h
    cases h
  | infinity sign =>
    rw [hparts] at h
    cases sign <;> cases h
  | zero sign => exact ⟨sign, rfl⟩
  | finite sign mantissa exponent hpos =>
    rw [hparts] at h
    cases sign <;> cases h

/-- A finite number whose mantissa is positive is not equal to zero. -/
theorem beq_zero_of_finite {sign : Sign} {mantissa : Nat} {exponent : Int} {hpos : 0 < mantissa}
    (h : number.toModel.unpack = .finite sign mantissa exponent hpos) : (number == 0) = false := by
  refine Bool.eq_false_iff.2 fun hzero => ?_
  obtain ⟨zeroSign, hparts⟩ := unpack_of_beq_zero hzero
  rw [h] at hparts
  cases hparts

/-- A finite number other than zero, divided by zero, is infinite under both signs. -/
theorem quotient_by_zero {dividend : Float} {sign sign' : Sign} {mantissa : Nat} {exponent : Int}
    {hpos : 0 < mantissa} (h : dividend.toModel.unpack = .finite sign mantissa exponent hpos) :
    dividend / .ofModel (.pack (.zero sign')) = .ofModel (.pack (.infinity (sign / sign'))) := by
  show Float.ofModel (.pack (UnpackedFloat.div .binary64 dividend.toModel.unpack _)) = _
  rw [h]
  cases sign' <;> rfl

/-- An infinity under the sign of a finite number, times a one under that of a zero, is infinite
under both signs. -/
theorem copySign_by_zero {dividend : Float} {sign sign' : Sign} {mantissa : Nat} {exponent : Int}
    {hpos : 0 < mantissa} (h : dividend.toModel.unpack = .finite sign mantissa exponent hpos) :
    copySign infinity dividend * copySign 1 (.ofModel (.pack (.zero sign'))) =
      .ofModel (.pack (.infinity (sign / sign'))) := by
  have hsign : isNegative dividend = (sign == .negative) := by
    rw [isNegative, h]
    cases sign <;> rfl
  rw [copySign, hsign]
  cases sign <;> cases sign' <;> decide

/-- **Quotients do not break down.** The guard asks for a quotient only by what is not zero, and its
own answers by zero are the quotients by zero. -/
theorem guardedQuotient_eq (dividend divisor : Float) :
    guardedQuotient dividend divisor = .ok (dividend / divisor) := by
  unfold guardedQuotient Primitive.quotient
  cases hzero : divisor == 0 with
  | false => rw [bne, hzero, if_pos (by decide), if_neg (by decide)]
  | true =>
    obtain ⟨sign', hdivisor⟩ := unpack_of_beq_zero hzero
    obtain rfl := eq_ofModel_pack hdivisor
    rw [bne, hzero, if_neg (by decide)]
    -- all but the finite dividends are single numbers
    cases hparts : dividend.toModel.unpack with
    | notANumber =>
      obtain rfl := eq_ofModel_pack hparts
      cases sign' <;> decide
    | infinity sign =>
      obtain rfl := eq_ofModel_pack hparts
      cases sign <;> cases sign' <;> decide
    | zero sign =>
      obtain rfl := eq_ofModel_pack hparts
      cases sign <;> cases sign' <;> decide
    | finite sign mantissa exponent hpos =>
      have hnumber : dividend.isNaN = false := congrArg UnpackedFloat.isNaN hparts
      rw [hnumber, beq_zero_of_finite hparts, if_neg (by decide), quotient_by_zero hparts,
        copySign_by_zero hparts]

/-- The guard of remainders answers only where there is no remainder. -/
theorem remainder_of_guard {dividend divisor : Float}
    (h : (divisor == 0 || dividend.isInf || divisor.isNaN || dividend.isNaN) = true) :
    remainder dividend divisor = notANumber := by
  unfold remainder
  simp only [Bool.or_eq_true] at h
  -- each of the four guards already makes the remainder of the parts NaN
  obtain ((hzero | hinfinite) | hdivisor) | hdividend := h
  · obtain ⟨sign, hparts⟩ := unpack_of_beq_zero hzero
    rw [hparts]
    cases dividend.toModel.unpack <;> rfl
  · change dividend.toModel.unpack.isInf = true at hinfinite
    cases hparts : dividend.toModel.unpack with
    | notANumber => rfl
    | infinity sign => cases divisor.toModel.unpack <;> rfl
    | zero | finite =>
      rw [hparts] at hinfinite
      cases hinfinite
  · change divisor.toModel.unpack.isNaN = true at hdivisor
    cases hparts : divisor.toModel.unpack with
    | notANumber => cases dividend.toModel.unpack <;> rfl
    | infinity | zero | finite =>
      rw [hparts] at hdivisor
      cases hdivisor
  · change dividend.toModel.unpack.isNaN = true at hdividend
    cases hparts : dividend.toModel.unpack with
    | notANumber => rfl
    | infinity | zero | finite =>
      rw [hparts] at hdividend
      cases hdividend

/-- **Remainders do not break down.** The guard answers wherever the primitive does not. -/
theorem guardedRemainder_eq (dividend divisor : Float) :
    guardedRemainder dividend divisor = .ok (remainder dividend divisor) := by
  unfold guardedRemainder
  split
  · rename_i hguard
    rw [remainder_of_guard hguard]
  · rename_i hguard
    simp only [Bool.not_eq_true, Bool.or_eq_false_iff] at hguard
    obtain ⟨⟨⟨hzero, hinfinite⟩, hdivisor⟩, hdividend⟩ := hguard
    rw [Primitive.remainder, hzero, hinfinite, hdivisor, hdividend]
    rfl

/-! ## Integers of 32 bits -/

/-- A number that is rational lies at that place in the line of numbers. -/
theorem extended_of_rational? {value : ℚ} (h : rational? number = some value) :
    extended number.toModel.unpack = ((value : WithTop ℚ) : Extended) ∧
      number.toModel.unpack.isNaN = false := by
  unfold rational? at h
  cases hparts : number.toModel.unpack <;> rw [hparts] at h <;> cases h <;> exact ⟨rfl, rfl⟩

/-- Numbers that are rational are compared as such. -/
theorem le_iff_of_rational? {left right : Float} {value value' : ℚ}
    (h : rational? left = some value) (h' : rational? right = some value') :
    left ≤ right ↔ value ≤ value' := by
  obtain ⟨hplace, hnumber⟩ := extended_of_rational? h
  obtain ⟨hplace', hnumber'⟩ := extended_of_rational? h'
  have hcompare : left ≤ right ↔
      (left.toModel.unpack.compare right.toModel.unpack).any Ordering.isLE = true :=
    decide_eq_true_iff
  rw [hcompare, compare_parts (isUnpacked_unpack _) (isUnpacked_unpack _), hnumber, hnumber',
    hplace, hplace', compare_coe, if_neg (by decide), Option.any_some, Ordering.isLE_iff_ne_gt]
  exact compare_le_iff_le

/-- **Numbers are cut without a breakdown.** The guards answer for what is not finite, and for what
lies beyond 32 bits, as the bounds do. -/
theorem guardedInt32_eq (number : Float) : guardedInt32 number = .ok (toInt32 number) := by
  cases hparts : number.toModel.unpack with
  | notANumber =>
    obtain rfl := eq_ofModel_pack hparts
    decide
  | infinity sign =>
    obtain rfl := eq_ofModel_pack hparts
    cases sign <;> decide
  | zero sign =>
    obtain rfl := eq_ofModel_pack hparts
    cases sign <;> decide
  | finite sign mantissa exponent hpos =>
    have hnumber : number.isNaN = false := congrArg UnpackedFloat.isNaN hparts
    have hvalue := rational?_of_unpack hparts
    have hwhole : Primitive.truncate number =
        .ok (truncate (((sign.apply mantissa : Int) : ℚ) * 2 ^ exponent)) := by
      rw [truncate_apply hpos, Primitive.truncate, hparts]
    have hcut : toInt32 number =
        clampInt32 (truncate (((sign.apply mantissa : Int) : ℚ) * 2 ^ exponent)) := by
      rw [truncate_apply hpos, toInt32, hparts]
    -- the guards compare doubles, and the bounds are doubles
    have hhigh := le_iff_of_rational?
      (rational?_nearest (by decide : int32Max.natAbs < 2 ^ 53)) hvalue
    have hlow := le_iff_of_rational? hvalue
      (rational?_nearest (by decide : int32Min.natAbs < 2 ^ 53))
    rw [guardedInt32, hnumber, if_neg (by decide), hcut, clampInt32_truncate, hwhole]
    rw [apply_ite Except.ok, apply_ite Except.ok]
    exact if_congr hhigh rfl (if_congr hlow rfl rfl)

/-- Operations on bits do not break down. -/
theorem guardedBits_eq (apply : BitVec 32 → BitVec 32 → BitVec 32) (left right : Float) :
    guardedBits apply left right = .ok (Operator.onBits apply left right) := by
  rw [guardedBits, guardedInt32_eq, guardedInt32_eq]
  rfl

end Decimal

/-! ## Kinds -/

/-- Every kind is listed, at the place that it has in the order. -/
theorem place_eq (kind : Kind) : Primitive.place kind = .ok kind.rank := by
  cases kind <;> rfl

namespace Value

/-- **Comparisons do not break down.** -/
theorem guardedCompare_eq (left right : Value) :
    left.guardedCompare right = .ok (left.compare? right) := by
  unfold guardedCompare
  split
  · rfl
  · rename_i hkinds
    rw [place_eq, place_eq]
    cases left <;> cases right <;> first | exact absurd rfl hkinds | rfl

/-- The guarded status of a value is its status: the number that is cut is never infinite. -/
theorem guardedStatus_eq (value : Value) : value.guardedStatus = .ok value.exitStatus := by
  cases value with
  | number value =>
    rw [guardedStatus, Decimal.guardedInt32_eq]
    rfl
  | boolean value => rfl
  | string value => rfl

end Value

namespace Operator

/-- **Operators do not break down.** -/
theorem guarded_eq (op : Operator) (left right : Value) :
    op.guarded left right = .ok (op.binary left right) := by
  unfold guarded
  -- the operators that rest on a primitive, and at last all the others
  split
  · rw [Decimal.guardedQuotient_eq]
    rfl
  · rw [Decimal.guardedRemainder_eq]
    rfl
  · rw [Decimal.guardedBits_eq]
    rfl
  · rw [Decimal.guardedBits_eq]
    rfl
  · rw [Value.guardedCompare_eq]
    rfl
  · rw [Value.guardedCompare_eq]
    rfl
  · rw [Value.guardedCompare_eq]
    rfl
  · rw [Value.guardedCompare_eq]
    rfl
  · rfl

end Operator

end Scriptlet
