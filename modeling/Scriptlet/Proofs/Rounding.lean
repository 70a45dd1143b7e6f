import Mathlib
import Scriptlet.Decimal.Shortest
import Scriptlet.Proofs.Doubles

/-! # Rounding to doubles

Rounding shifts a mantissa to the place of the last bit that a double can have there, keeps the
first lost bit and whether any later one was set, and goes to the nearest mantissa; of two equally
near ones to the even one. A double is reached from every number of an interval around it.

* `RoundsTo mantissa exponent value`: the value lies in the interval of a double.
* `roundWithAccuracy_of_roundsTo`: rounding a value of the interval yields the double.
* `ofScientific_of_roundsTo`: so does reading a decimal in the interval. -/

namespace Scriptlet.Decimal

open Float.Model (UnpackedFloat totalExponent)
open Float.Model.UnpackedFloat (Sign Accuracy ExtendedMantissa shiftToExponent
  shiftToTargetExponent roundWithAccuracy)

/-! ## The nearest natural number -/

/-- A natural number is nearest to a point; a point halfway between two belongs to the even one. -/
structure IsNearest (point : ℚ) (whole : Nat) : Prop where
  /-- The point is not too far below. -/
  low : whole - 1 / 2 ≤ point
  /-- The point is not too far above. -/
  high : point ≤ whole + 1 / 2
  /-- Points halfway to the next number belong to even numbers. -/
  even : point = whole - 1 / 2 ∨ point = whole + 1 / 2 → whole % 2 = 0

/-- Of two nearest numbers neither is greater. -/
theorem IsNearest.le {point : ℚ} {whole whole' : Nat} (h : IsNearest point whole)
    (h' : IsNearest point whole') : whole' ≤ whole := by
  by_contra hlt
  have hnext : whole + 1 ≤ whole' := by omega
  have hnext' : (whole : ℚ) + 1 ≤ whole' := by exact_mod_cast hnext
  have hhigh := h.high
  have hlow := h'.low
  -- the point is halfway between the two, which are neighbours and both even
  have hpoint : point = whole + 1 / 2 := by linarith
  have hpoint' : point = whole' - 1 / 2 := by linarith
  have hsame : (whole' : ℚ) = (whole + 1 : Nat) := by
    push_cast
    linarith
  have heven := h.even (.inr hpoint)
  have heven' := h'.even (.inl hpoint')
  have hneighbour : whole' = whole + 1 := by exact_mod_cast hsame
  omega

/-- There is one nearest number: of two equally near ones only one is even. -/
theorem IsNearest.unique {point : ℚ} {whole whole' : Nat} (h : IsNearest point whole)
    (h' : IsNearest point whole') : whole = whole' :=
  le_antisymm (h'.le h) (h.le h')

/-! ## Residual bits -/

/-- A mantissa stands for a point with the first lost bit and whether a later one was set. -/
def StandsFor (extended : ExtendedMantissa) (point : ℚ) : Prop :=
  match extended.roundBit, extended.stickyBit with
  | false, false => point = extended.mantissa
  | false, true => extended.mantissa < point ∧ point < extended.mantissa + 1 / 2
  | true, false => point = extended.mantissa + 1 / 2
  | true, true => extended.mantissa + 1 / 2 < point ∧ point < extended.mantissa + 1

variable {extended : ExtendedMantissa} {point : ℚ}

/-- The mantissa that is rounded by its two residual bits is nearest to the point. -/
theorem StandsFor.isNearest (h : StandsFor extended point) :
    IsNearest point extended.roundedMantissa := by
  obtain ⟨mantissa, roundBit, stickyBit⟩ := extended
  cases roundBit <;> cases stickyBit <;> simp only [StandsFor] at h <;>
    simp only [ExtendedMantissa.roundedMantissa, ExtendedMantissa.accuracy,
      Accuracy.roundToNearestEven]
  · exact ⟨by linarith, by linarith, by rintro (h' | h') <;> linarith⟩
  · exact ⟨by linarith, by linarith, by rintro (h' | h') <;> linarith⟩
  · -- halfway: an odd mantissa goes up, an even one stays
    rcases Nat.mod_two_eq_zero_or_one mantissa with heven | hodd
    · rw [heven]
      exact ⟨by push_cast; linarith, by push_cast; linarith, by omega⟩
    · rw [hodd]
      exact ⟨by push_cast; linarith, by push_cast; linarith, by omega⟩
  · refine ⟨by push_cast; linarith, by push_cast; linarith, ?_⟩
    rintro (h' | h') <;> push_cast at h' <;> linarith

/-- One shift halves the point. -/
theorem StandsFor.shiftRightOne (h : StandsFor extended point) :
    StandsFor extended.shiftRightOne (point / 2) := by
  obtain ⟨mantissa, roundBit, stickyBit⟩ := extended
  have hparts : (mantissa : ℚ) = 2 * (mantissa / 2 : Nat) + (mantissa % 2 : Nat) := by
    exact_mod_cast (Nat.div_add_mod mantissa 2).symm
  rcases Nat.mod_two_eq_zero_or_one mantissa with hbit | hbit <;> rw [hbit] at hparts <;>
    push_cast at hparts <;> cases roundBit <;> cases stickyBit <;>
    simp only [StandsFor, ExtendedMantissa.shiftRightOne, hbit] at h ⊢ <;> norm_num <;> grind

/-- To shift a mantissa is to divide the point that it stands for. -/
theorem StandsFor.shiftRight (h : StandsFor extended point) (count : Nat) :
    StandsFor (extended >>> count) (point / 2 ^ count) := by
  show StandsFor (count.repeat ExtendedMantissa.shiftRightOne extended) (point / 2 ^ count)
  induction count with
  | zero => simpa [Nat.repeat] using h
  | succ count ih =>
    rw [Nat.repeat, pow_succ, ← div_div]
    exact ih.shiftRightOne

/-! ## The interval of a double -/

/-- A value rounds to a double. Below a power of two the interval is shorter, unless the last binary
place is reached; its ends belong to even mantissas. -/
structure RoundsTo (mantissa : Nat) (exponent : Int) (value : ℚ) : Prop where
  /-- The value is not too far below. -/
  low : (lowQuarters mantissa exponent : ℚ) / 4 * 2 ^ exponent ≤ value
  /-- The value is not too far above. -/
  high : value ≤ (highQuarters mantissa : ℚ) / 4 * 2 ^ exponent
  /-- The ends belong to even mantissas. -/
  even : value = (lowQuarters mantissa exponent : ℚ) / 4 * 2 ^ exponent ∨
    value = (highQuarters mantissa : ℚ) / 4 * 2 ^ exponent → mantissa % 2 = 0

section Interval

variable {mantissa : Nat} {exponent : Int} {value : ℚ}

/-- A power of two is positive. -/
theorem two_zpow_pos (exponent : Int) : (0 : ℚ) < 2 ^ exponent :=
  zpow_pos (by norm_num) exponent

/-- A double with a mantissa and an exponent is positive. -/
theorem IsDouble.value_pos (h : IsDouble mantissa exponent) : (0 : ℚ) < mantissa * 2 ^ exponent :=
  mul_pos (by exact_mod_cast h.pos) (two_zpow_pos exponent)

/-- The interval of a double ends half a unit above its mantissa. -/
theorem highQuarters_eq (mantissa : Nat) : (highQuarters mantissa : ℚ) / 4 = mantissa + 1 / 2 := by
  rw [highQuarters]
  push_cast
  ring

/-- The lower end is a quarter below a power of two, and else a half below the mantissa. -/
theorem lowQuarters_cases (h : IsDouble mantissa exponent) :
    (mantissa = 2 ^ 52 ∧ -1074 < exponent ∧
        (lowQuarters mantissa exponent : ℚ) / 4 = mantissa - 1 / 4) ∨
      (¬ (mantissa = 2 ^ 52 ∧ -1074 < exponent) ∧
        (lowQuarters mantissa exponent : ℚ) / 4 = mantissa - 1 / 2) := by
  have hpos := h.pos
  unfold lowQuarters leastMantissa lastPlace
  -- below a power of two the doubles stand twice as close
  by_cases hleast : mantissa = 2 ^ 52 ∧ -1074 < exponent
  · rw [if_pos (by simpa using hleast), Nat.cast_sub (by omega)]
    refine .inl ⟨hleast.1, hleast.2, ?_⟩
    push_cast
    ring
  · rw [if_neg (by simpa using hleast), Nat.cast_sub (by omega)]
    refine .inr ⟨hleast, ?_⟩
    push_cast
    ring

/-- In units of its last place, a value of the interval is nearest to the mantissa. -/
theorem RoundsTo.isNearest (h : RoundsTo mantissa exponent value)
    (hdouble : IsDouble mantissa exponent) :
    IsNearest (value / 2 ^ exponent) mantissa := by
  have hunit := two_zpow_pos exponent
  have hlow := h.low
  have hhigh := h.high
  have heven := h.even
  rw [← le_div_iff₀ hunit] at hlow
  rw [← div_le_iff₀ hunit] at hhigh
  rw [← div_eq_iff hunit.ne', ← div_eq_iff hunit.ne'] at heven
  rw [highQuarters_eq] at hhigh heven
  -- at a power of two the interval is shorter below, so its end is no tie
  rcases lowQuarters_cases hdouble with ⟨-, -, hends⟩ | ⟨-, hends⟩
  · rw [hends] at hlow heven
    refine ⟨by linarith, hhigh, ?_⟩
    rintro (hend | hend)
    · linarith
    · exact heven (.inr hend)
  · rw [hends] at hlow heven
    exact ⟨hlow, hhigh, heven⟩

/-- Every double rounds to itself. -/
theorem IsDouble.roundsTo (h : IsDouble mantissa exponent) :
    RoundsTo mantissa exponent (mantissa * 2 ^ exponent) := by
  have hunit := two_zpow_pos exponent
  have hhigh := highQuarters_eq mantissa
  have hlow : (lowQuarters mantissa exponent : ℚ) / 4 < mantissa := by
    rcases lowQuarters_cases h with ⟨-, -, hends⟩ | ⟨-, hends⟩ <;> rw [hends] <;> linarith
  have hbelow := mul_lt_mul_of_pos_right hlow hunit
  have habove : (mantissa : ℚ) * 2 ^ exponent < (highQuarters mantissa : ℚ) / 4 * 2 ^ exponent := by
    apply mul_lt_mul_of_pos_right _ hunit
    linarith
  -- an exact value is inside of its interval, so a tie at an end does not occur
  refine ⟨hbelow.le, habove.le, ?_⟩
  rintro (hend | hend)
  · exact absurd hend hbelow.ne'
  · exact absurd hend habove.ne

/-- Half a unit of the last binary place is below all intervals. -/
theorem RoundsTo.ge (h : RoundsTo mantissa exponent value) (hdouble : IsDouble mantissa exponent) :
    2 ^ (-1075 : Int) ≤ value := by
  have hmantissa : (1 : ℚ) ≤ mantissa := by exact_mod_cast hdouble.pos
  have hhalf : (1 / 2 : ℚ) ≤ lowQuarters mantissa exponent / 4 := by
    rcases lowQuarters_cases hdouble with ⟨-, -, hends⟩ | ⟨-, hends⟩ <;> rw [hends] <;> linarith
  calc (2 : ℚ) ^ (-1075 : Int) = 1 / 2 * 2 ^ (-1074 : Int) := by
        rw [show (-1075 : Int) = -1 + -1074 by decide, zpow_add₀ (by norm_num), zpow_neg_one,
          one_div]
    _ ≤ lowQuarters mantissa exponent / 4 * 2 ^ exponent := by
        gcongr
        · norm_num
        · exact hdouble.low
    _ ≤ value := h.low

/-- A value in the interval of a positive double is not zero. -/
theorem RoundsTo.ne_zero (h : RoundsTo mantissa exponent value)
    (hdouble : IsDouble mantissa exponent) : value ≠ 0 :=
  ((two_zpow_pos _).trans_le (h.ge hdouble)).ne'

/-- No value of the interval needs more bits before the last place than a mantissa has. -/
theorem RoundsTo.lt (h : RoundsTo mantissa exponent value) (hdouble : IsDouble mantissa exponent) :
    value < 2 ^ (exponent + 53) := by
  have hunit := two_zpow_pos exponent
  have hmantissa : (mantissa : ℚ) + 1 ≤ 2 ^ 53 := by exact_mod_cast hdouble.lt
  have hhigh := h.high
  rw [highQuarters_eq] at hhigh
  rw [zpow_add₀ (by norm_num), mul_comm]
  apply lt_of_le_of_lt hhigh
  apply mul_lt_mul_of_pos_right _ hunit
  norm_num at hmantissa ⊢
  linarith

/-- Above the last binary place, a value of the interval that needs fewer bits than a mantissa has
lies below a power of two. -/
theorem RoundsTo.least_of_lt (h : RoundsTo mantissa exponent value)
    (hdouble : IsDouble mantissa exponent) (hlast : -1074 < exponent)
    (hlt : value < 2 ^ (exponent + 52)) :
    mantissa = 2 ^ 52 ∧ (2 ^ 52 - 1 / 4) * 2 ^ exponent ≤ value := by
  have hunit := two_zpow_pos exponent
  have hfull : 2 ^ 52 ≤ mantissa := hdouble.full.resolve_right (by omega)
  have hlow := h.low
  rw [zpow_add₀ (by norm_num), mul_comm] at hlt
  rcases lowQuarters_cases hdouble with ⟨hleast, -, hends⟩ | ⟨hother, hends⟩
  · rw [hends, hleast] at hlow
    exact ⟨hleast, by exact_mod_cast hlow⟩
  · -- a greater mantissa keeps the whole interval above the power of two
    exfalso
    have hgreater : 2 ^ 52 + 1 ≤ mantissa := by
      rcases hfull.lt_or_eq with hlt | heq
      · exact hlt
      · exact absurd ⟨heq.symm, hlast⟩ hother
    have hgreater' : (2 : ℚ) ^ 52 + 1 ≤ mantissa := by exact_mod_cast hgreater
    rw [hends] at hlow
    have hbelow := lt_of_mul_lt_mul_right (hlow.trans_lt hlt) hunit.le
    norm_num at hbelow
    linarith

end Interval

/-! ## Rounding a mantissa -/

section Round

variable {mantissa wide : Nat} {exponent place : Int} {value : ℚ} {accuracy : Accuracy}

/-- The place of the last bit that a double can have there. -/
theorem targetExponent_eq (wide : Nat) (place : Int) :
    Float.Model.Format.binary64.targetExponent (totalExponent wide place) =
      max (wide.log2 + place - 52) (-1074) := by
  simp only [Float.Model.Format.targetExponent, totalExponent, Float.Model.Format.mantissaBits,
    Float.Model.Format.minExponent]
  norm_num
  omega

/-- A mantissa is wide enough: rounding it only drops bits. -/
def IsWide (wide : Nat) (place : Int) : Prop :=
  52 ≤ wide.log2 ∨ place ≤ -1074

/-- A wide mantissa is rounded at its own place or further up. -/
theorem IsWide.le (h : IsWide wide place) : place ≤ max (wide.log2 + place - 52) (-1074) := by
  unfold IsWide at h
  omega

/-- A wide mantissa, shifted to the place of its last bit, stands for the same value at that
place. -/
theorem StandsFor.exists_shiftToTargetExponent (hwide : IsWide wide place)
    (h : StandsFor (.ofMantissaAndAccuracy wide accuracy) (value / 2 ^ place)) :
    ∃ extended, shiftToTargetExponent .binary64 wide place accuracy =
        (extended, max (wide.log2 + place - 52) (-1074)) ∧
      StandsFor extended (value / 2 ^ max (wide.log2 + place - 52) (-1074)) := by
  have hle := hwide.le
  rw [shiftToTargetExponent, targetExponent_eq]
  set target : Int := max (wide.log2 + place - 52) (-1074)
  have hplace : place + ((target - place).toNat : Int) = target := by omega
  refine ⟨_, by rw [shiftToExponent, hplace], ?_⟩
  have hshifted := h.shiftRight (target - place).toNat
  rwa [div_div, ← zpow_natCast, ← zpow_add₀ (by norm_num), hplace] at hshifted

/-- A mantissa is the whole part of the point that it stands for. -/
theorem StandsFor.bounds {point : ℚ} (h : StandsFor (.ofMantissaAndAccuracy wide accuracy) point) :
    wide ≤ point ∧ point < wide + 1 := by
  rcases accuracy with _ | (_ | _ | _) <;>
    simp only [StandsFor, ExtendedMantissa.ofMantissaAndAccuracy] at h <;>
    constructor <;> linarith

/-- Shifted to its target, a value has at most 53 bits before the last place, and all of them unless
that is the last binary place. -/
theorem StandsFor.target_bounds (hwide : IsWide wide place)
    (h : StandsFor (.ofMantissaAndAccuracy wide accuracy) (value / 2 ^ place)) :
    value < 2 ^ (max (wide.log2 + place - 52) (-1074) + 53) ∧
      (-1074 < max (wide.log2 + place - 52) (-1074) →
        2 ^ (max (wide.log2 + place - 52) (-1074) + 52) ≤ value) := by
  have hunit := two_zpow_pos place
  obtain ⟨hlow, hhigh⟩ := h.bounds
  rw [le_div_iff₀ hunit] at hlow
  rw [div_lt_iff₀ hunit] at hhigh
  -- the place of the last bit is chosen from the length of the mantissa, on both sides
  constructor
  · have hlog : wide + 1 ≤ 2 ^ (wide.log2 + 1) := Nat.lt_log2_self
    have hlog' : (wide : ℚ) + 1 ≤ 2 ^ (wide.log2 + 1) := by exact_mod_cast hlog
    calc value < (wide + 1) * 2 ^ place := hhigh
      _ ≤ 2 ^ (wide.log2 + 1) * 2 ^ place := by gcongr
      _ = 2 ^ ((wide.log2 + 1 : Nat) + place) := by rw [zpow_add₀ (by norm_num), zpow_natCast]
      _ ≤ 2 ^ (max (wide.log2 + place - 52) (-1074) + 53) :=
        zpow_le_zpow_right₀ (by norm_num) (by omega)
  · intro hplace
    -- zero has no bits, and would be taken at the last place of all
    have hnot : wide ≠ 0 := by
      rintro rfl
      rw [Nat.log2_zero] at hplace
      unfold IsWide at hwide
      rw [Nat.log2_zero] at hwide
      omega
    have hlog : 2 ^ wide.log2 ≤ wide := Nat.log2_self_le hnot
    have hlog' : (2 : ℚ) ^ wide.log2 ≤ wide := by exact_mod_cast hlog
    calc (2 : ℚ) ^ (max (wide.log2 + place - 52) (-1074) + 52)
        = 2 ^ ((wide.log2 : Int) + place) := by
          congr 1
          omega
      _ = 2 ^ wide.log2 * 2 ^ place := by rw [zpow_add₀ (by norm_num), zpow_natCast]
      _ ≤ wide * 2 ^ place := by gcongr
      _ ≤ value := hlow

/-- The target of a value of the interval is the place of the double, or the one below it in front
of a power of two. -/
theorem RoundsTo.target_cases (h : RoundsTo mantissa exponent value)
    (hdouble : IsDouble mantissa exponent) {target : Int} (htarget : -1074 ≤ target)
    (hupper : value < 2 ^ (target + 53)) (hlower : -1074 < target → 2 ^ (target + 52) ≤ value) :
    target = exponent ∨
      (target + 1 = exponent ∧ mantissa = 2 ^ 52 ∧ (2 ^ 52 - 1 / 4) * 2 ^ exponent ≤ value) := by
  have hlast := hdouble.low
  have htwo : (1 : ℚ) < 2 := by norm_num
  have hle : target ≤ exponent := by
    by_contra hlt
    have hbits := (hlower (by omega)).trans_lt (h.lt hdouble)
    rw [zpow_lt_zpow_iff_right₀ htwo] at hbits
    omega
  rcases hle.lt_or_eq with hlt | heq
  · have hfewer : value < 2 ^ (exponent + 52) :=
      hupper.trans_le (zpow_le_zpow_right₀ htwo.le (by omega))
    obtain ⟨hleast, hlow⟩ := h.least_of_lt hdouble (by omega) hfewer
    refine .inr ⟨?_, hleast, hlow⟩
    -- two places below, the value would have to be less than half of the power of two
    by_contra hne
    have hhalf : value < 2 ^ (exponent + 51) :=
      hupper.trans_le (zpow_le_zpow_right₀ htwo.le (by omega))
    rw [zpow_add₀ (by norm_num), mul_comm] at hhalf
    have hbelow := lt_of_mul_lt_mul_right (hlow.trans_lt hhalf) (two_zpow_pos exponent).le
    norm_num at hbelow
  · exact .inl heq

/-- A mantissa at its place stays as it is. -/
theorem IsDouble.shiftToTargetExponent_eq (h : IsDouble mantissa exponent) :
    shiftToTargetExponent .binary64 mantissa exponent .exact =
      (⟨mantissa, false, false⟩, exponent) := by
  have hlog := log2_lt_of_lt h.pos h.lt
  have hlow := h.low
  have hstay : (max (mantissa.log2 + exponent - 52) (-1074) - exponent).toNat = 0 := by omega
  rw [shiftToTargetExponent, targetExponent_eq, shiftToExponent, hstay]
  simp [ExtendedMantissa.ofMantissaAndAccuracy, HShiftRight.hShiftRight, Nat.repeat]

/-- A mantissa that has grown by a bit loses it again. -/
theorem shiftToTargetExponent_grown {target : Int} (h : -1074 ≤ target) :
    shiftToTargetExponent .binary64 (2 ^ 53) target .exact =
      (⟨2 ^ 52, false, false⟩, target + 1) := by
  have hstep : (max ((2 ^ 53 : Nat).log2 + target - 52) (-1074) - target).toNat = 1 := by
    rw [Nat.log2_two_pow]
    omega
  rw [shiftToTargetExponent, targetExponent_eq, shiftToExponent, hstep]
  simp [ExtendedMantissa.ofMantissaAndAccuracy, HShiftRight.hShiftRight, Nat.repeat,
    ExtendedMantissa.shiftRightOne]

/-- Two places below the next power of two, half a unit less than it is nearest to it. -/
theorem isNearest_grown {target : Int} (hlow : (2 ^ 52 - 1 / 4) * 2 ^ (target + 1) ≤ value)
    (hupper : value < 2 ^ (target + 53)) : IsNearest (value / 2 ^ target) (2 ^ 53) := by
  have hunit := two_zpow_pos target
  rw [zpow_add₀ (by norm_num), zpow_one, mul_comm (2 ^ target), ← mul_assoc, ← le_div_iff₀ hunit]
    at hlow
  rw [zpow_add₀ (by norm_num), mul_comm, ← div_lt_iff₀ hunit] at hupper
  norm_num at hlow hupper
  exact ⟨by norm_num; linarith, by norm_num; linarith, fun _ => by decide⟩

/-- Rounding shifts twice: to the target, and once more when the mantissa has grown. -/
theorem roundWithAccuracy_of_shifts {extended final : ExtendedMantissa} {target last : Int}
    (hfirst : shiftToTargetExponent .binary64 wide place accuracy = (extended, target))
    (hsecond : shiftToTargetExponent .binary64 extended.roundedMantissa target .exact =
      (final, last))
    (hpos : 0 < final.mantissa) (sign : Sign) :
    roundWithAccuracy .binary64 sign wide place accuracy =
      .finite sign final.mantissa last hpos := by
  simp only [roundWithAccuracy, hfirst, hsecond]
  rw [dif_neg hpos.ne']

/-- **Rounding reaches a double from its whole interval.** Shifted to the target, the value is
nearest to the mantissa, or to the next power of two, which is then shifted once more. -/
theorem roundWithAccuracy_of_roundsTo (h : RoundsTo mantissa exponent value)
    (hdouble : IsDouble mantissa exponent) (hwide : IsWide wide place)
    (hstands : StandsFor (.ofMantissaAndAccuracy wide accuracy) (value / 2 ^ place)) (sign : Sign) :
    roundWithAccuracy .binary64 sign wide place accuracy =
      .finite sign mantissa exponent hdouble.pos := by
  obtain ⟨extended, hshift, hextended⟩ := hstands.exists_shiftToTargetExponent hwide
  obtain ⟨hupper, hlower⟩ := hstands.target_bounds hwide
  set target : Int := max (wide.log2 + place - 52) (-1074)
  have htarget : -1074 ≤ target := le_max_right _ _
  -- the first rounding hits the mantissa, or fills it up and one more shift is needed
  rcases h.target_cases hdouble htarget hupper hlower with rfl | ⟨rfl, rfl, hlow⟩
  · obtain rfl := hextended.isNearest.unique (h.isNearest hdouble)
    exact roundWithAccuracy_of_shifts hshift hdouble.shiftToTargetExponent_eq _ sign
  · have hback := shiftToTargetExponent_grown htarget
    rw [← hextended.isNearest.unique (isNearest_grown hlow hupper)] at hback
    exact roundWithAccuracy_of_shifts hshift hback _ sign

end Round

/-! ## Rounding integers -/

section Integers

variable {mantissa whole : Nat} {exponent place : Int}

/-- Bits are added below a mantissa until it is wide enough. -/
theorem isWide_decreaseExponent (hwhole : whole ≠ 0) (place : Int) :
    let widened := Float.Model.UnpackedFloat.decreaseExponent whole place
      (max (whole.log2 + place - 52) (-1074))
    IsWide widened.1 widened.2 := by
  simp only [Float.Model.UnpackedFloat.decreaseExponent, Nat.shiftLeft_eq]
  set shift := (place - max (whole.log2 + place - 52) (-1074)).toNat with hshift
  -- either the least exponent is reached, or the shift has filled up 53 bits
  by_cases hlast : place - shift ≤ -1074
  · exact .inr hlast
  · have hbits : 52 ≤ whole.log2 + shift := by omega
    have hge : 2 ^ 52 ≤ whole * 2 ^ shift :=
      calc 2 ^ 52 ≤ 2 ^ (whole.log2 + shift) := Nat.pow_le_pow_right (by decide) hbits
        _ = 2 ^ whole.log2 * 2 ^ shift := pow_add ..
        _ ≤ whole * 2 ^ shift := Nat.mul_le_mul_right _ (Nat.log2_self_le hwhole)
    exact .inl ((Nat.le_log2 (by omega)).2 hge)

/-- Rounding a binary number in the interval of a double yields the double. -/
theorem round_of_roundsTo (h : RoundsTo mantissa exponent (whole * 2 ^ place))
    (hdouble : IsDouble mantissa exponent) (sign : Sign) :
    UnpackedFloat.round .binary64 sign whole place =
      .finite sign mantissa exponent hdouble.pos := by
  have hwhole : whole ≠ 0 := by
    rintro rfl
    exact h.ne_zero hdouble (by simp)
  have hwide := isWide_decreaseExponent hwhole place
  rw [UnpackedFloat.round, targetExponent_eq]
  apply roundWithAccuracy_of_roundsTo h hdouble hwide
  simp only [StandsFor, ExtendedMantissa.ofMantissaAndAccuracy,
    Float.Model.UnpackedFloat.decreaseExponent, Nat.shiftLeft_eq]
  rw [div_eq_iff (two_zpow_pos _).ne']
  push_cast
  rw [mul_assoc, ← zpow_natCast, ← zpow_add₀ (by norm_num), add_sub_cancel]

/-- Every natural number of at most 53 bits is a double. -/
theorem exists_isDouble (hpos : 0 < whole) (hlt : whole < 2 ^ 53) :
    ∃ mantissa exponent, IsDouble mantissa exponent ∧ (mantissa : ℚ) * 2 ^ exponent = whole := by
  have hlog := log2_lt_of_lt hpos hlt
  refine ⟨whole * 2 ^ (52 - whole.log2), whole.log2 - 52, ⟨by positivity, ?_, by omega, by omega,
    .inl ?_⟩, ?_⟩
  · calc whole * 2 ^ (52 - whole.log2) < 2 ^ (whole.log2 + 1) * 2 ^ (52 - whole.log2) :=
          Nat.mul_lt_mul_of_pos_right Nat.lt_log2_self (by positivity)
      _ = 2 ^ 53 := by rw [← pow_add]; congr 1; omega
  · calc 2 ^ 52 = 2 ^ whole.log2 * 2 ^ (52 - whole.log2) := by rw [← pow_add]; congr 1; omega
      _ ≤ whole * 2 ^ (52 - whole.log2) := Nat.mul_le_mul_right _ (Nat.log2_self_le hpos.ne')
  · push_cast
    rw [mul_assoc, ← zpow_natCast, ← zpow_add₀ (by norm_num), Nat.cast_sub (by omega)]
    simp

end Integers

/-! ## Reading decimals -/

section Scientific

variable {mantissa digits : Nat} {exponent power : Int}

/-- What the reader takes for infinite lies above all intervals. -/
theorem RoundsTo.power_le (h : RoundsTo mantissa exponent (digits * 10 ^ power))
    (hdouble : IsDouble mantissa exponent) (hdigits : digits ≠ 0) : power ≤ 2 ^ 11 := by
  by_contra hlt
  have hhigh := hdouble.high
  have hone : (1 : ℚ) ≤ digits := by exact_mod_cast Nat.pos_of_ne_zero hdigits
  have hgreat : (2 : ℚ) ^ (exponent + 53) ≤ digits * 10 ^ power :=
    calc (2 : ℚ) ^ (exponent + 53) ≤ 2 ^ power := zpow_le_zpow_right₀ (by norm_num) (by omega)
      _ ≤ 10 ^ power := zpow_le_zpow_left₀ (by omega) (by norm_num) (by norm_num)
      _ ≤ digits * 10 ^ power := le_mul_of_one_le_left (by positivity) hone
  exact absurd (h.lt hdouble) hgreat.not_gt

/-- What the reader takes for zero lies below all intervals. -/
theorem RoundsTo.le_power (h : RoundsTo mantissa exponent (digits * 10 ^ power))
    (hdouble : IsDouble mantissa exponent) : -((2 : Int) ^ 11 + digits.log2) ≤ power := by
  by_contra hlt
  have hlog : digits < 2 ^ (digits.log2 + 1) := Nat.lt_log2_self
  have hlog' : (digits : ℚ) ≤ 2 ^ (digits.log2 + 1) := by exact_mod_cast hlog.le
  -- a negative power of ten is at most the same power of two
  have htwo : (10 : ℚ) ^ power ≤ 2 ^ power := by
    rw [← neg_neg power, zpow_neg, zpow_neg 2]
    apply inv_anti₀ (two_zpow_pos _)
    exact zpow_le_zpow_left₀ (by omega) (by norm_num) (by norm_num)
  have hsmall : (digits : ℚ) * 10 ^ power < 2 ^ (-1075 : Int) :=
    calc (digits : ℚ) * 10 ^ power ≤ 2 ^ (digits.log2 + 1) * 2 ^ power := by gcongr
      _ = 2 ^ ((digits.log2 + 1 : Nat) + power) := by rw [zpow_add₀ (by norm_num), zpow_natCast]
      _ < 2 ^ (-1075 : Int) := zpow_lt_zpow_right₀ (by norm_num) (by omega)
  exact absurd (h.ge hdouble) hsmall.not_ge

/-- A decimal without places is rounded from its value. -/
theorem ofScientific_of_nonneg (hdigits : digits ≠ 0) (hhigh : power ≤ 2 ^ 11)
    (hpower : 0 ≤ power) :
    UnpackedFloat.ofScientific .binary64 digits power =
      roundWithAccuracy .binary64 .positive (digits * 2 ^ 53 * 10 ^ power.toNat) (-53) .exact := by
  have hlow : ¬ power < -((2 : Int) ^ 11 + digits.log2) := by omega
  rw [UnpackedFloat.ofScientific, dif_neg hdigits, if_neg (not_lt.2 hhigh), if_neg hlow,
    if_pos hpower, UnpackedFloat.mul, Nat.shiftLeft_eq]
  rfl

/-- The place from which on a quotient has enough bits. -/
def quotientPlace (digits divisor : Nat) : Int :=
  min 0 (max (digits.log2 - divisor.log2 - 53) (-1074))

/-- A quotient is taken at least to the units. -/
theorem quotientPlace_nonpos (digits divisor : Nat) : quotientPlace digits divisor ≤ 0 :=
  min_le_left _ _

/-- A quotient of natural numbers is taken from the dividend shifted to its place, with its
remainder. -/
theorem divCore_eq (digits divisor : Nat) :
    Float.Model.UnpackedFloat.divCore .binary64 digits 0 divisor 0 =
      (digits * 2 ^ (-quotientPlace digits divisor).toNat / divisor, quotientPlace digits divisor,
        Float.Model.UnpackedFloat.accuracyOfFraction
          (digits * 2 ^ (-quotientPlace digits divisor).toNat % divisor) divisor) := by
  have hplace : min 0 (Float.Model.Format.binary64.targetExponent
      (totalExponent digits 0 - totalExponent divisor 0)) = quotientPlace digits divisor := by
    simp only [quotientPlace, Float.Model.Format.targetExponent, totalExponent,
      Float.Model.Format.mantissaBits, Float.Model.Format.minExponent]
    norm_num
  simp only [Float.Model.UnpackedFloat.divCore, sub_self, hplace, zero_sub, Nat.shiftLeft_eq]

/-- A decimal with places is rounded from the quotient of its digits by a power of ten. -/
theorem ofScientific_of_neg (hdigits : digits ≠ 0)
    (hlow : -((2 : Int) ^ 11 + digits.log2) ≤ power) (hpower : power < 0) {divisor : Nat}
    (hdivisor : 10 ^ (-power).toNat = divisor) :
    UnpackedFloat.ofScientific .binary64 digits power =
      roundWithAccuracy .binary64 .positive
        (digits * 2 ^ (-quotientPlace digits divisor).toNat / divisor)
        (quotientPlace digits divisor)
        (Float.Model.UnpackedFloat.accuracyOfFraction
          (digits * 2 ^ (-quotientPlace digits divisor).toNat % divisor) divisor) := by
  have hhigh : ¬ power > (2 : Int) ^ 11 := by omega
  rw [UnpackedFloat.ofScientific, dif_neg hdigits, if_neg hhigh, if_neg (not_lt.2 hlow),
    if_neg (not_le.2 hpower)]
  simp only [hdivisor, UnpackedFloat.div, divCore_eq]
  rfl

/-- A quotient with its remainder stands for the exact quotient. -/
theorem standsFor_quotient (dividend : Nat) {divisor : Nat} (hdivisor : 0 < divisor) :
    StandsFor (.ofMantissaAndAccuracy (dividend / divisor)
      (Float.Model.UnpackedFloat.accuracyOfFraction (dividend % divisor) divisor))
      ((dividend : ℚ) / divisor) := by
  have hden : (0 : ℚ) < divisor := by exact_mod_cast hdivisor
  have hless : ((dividend % divisor : Nat) : ℚ) < divisor := by
    exact_mod_cast Nat.mod_lt dividend hdivisor
  have hpoint : (dividend : ℚ) / divisor =
      (dividend / divisor : Nat) + ((dividend % divisor : Nat) : ℚ) / divisor := by
    rw [div_eq_iff hden.ne', add_mul, div_mul_cancel₀ _ hden.ne', mul_comm]
    exact_mod_cast (Nat.div_add_mod dividend divisor).symm
  rw [hpoint]
  generalize dividend % divisor = rest at hless ⊢
  unfold Float.Model.UnpackedFloat.accuracyOfFraction
  by_cases hrest : rest = 0
  · rw [if_pos hrest, hrest]
    simp [StandsFor, ExtendedMantissa.ofMantissaAndAccuracy]
  · have hpos : (0 : ℚ) < rest / divisor :=
      div_pos (by exact_mod_cast Nat.pos_of_ne_zero hrest) hden
    have hone : (rest : ℚ) / divisor < 1 := (div_lt_one hden).2 hless
    rw [if_neg hrest]
    -- the remainder is compared with half of the divisor
    rcases lt_trichotomy (2 * rest) divisor with hlt | heq | hgt
    · have hhalf : (rest : ℚ) / divisor < 1 / 2 := by
        rw [div_lt_div_iff₀ hden (by norm_num)]
        exact_mod_cast (by omega : rest * 2 < 1 * divisor)
      rw [Nat.compare_eq_lt.2 hlt]
      simp only [StandsFor, ExtendedMantissa.ofMantissaAndAccuracy]
      exact ⟨by linarith, by linarith⟩
    · have hhalf : (rest : ℚ) / divisor = 1 / 2 := by
        rw [div_eq_div_iff hden.ne' (by norm_num)]
        exact_mod_cast (by omega : rest * 2 = 1 * divisor)
      rw [Nat.compare_eq_eq.2 heq, hhalf]
      rfl
    · have hhalf : 1 / 2 < (rest : ℚ) / divisor := by
        rw [div_lt_div_iff₀ (by norm_num) hden]
        exact_mod_cast (by omega : 1 * divisor < rest * 2)
      rw [Nat.compare_eq_gt.2 hgt]
      simp only [StandsFor, ExtendedMantissa.ofMantissaAndAccuracy]
      exact ⟨by linarith, by linarith⟩

/-- A quotient at its place is wide enough. -/
theorem isWide_quotient (hdigits : digits ≠ 0) {divisor : Nat} (hdivisor : 0 < divisor) :
    IsWide (digits * 2 ^ (-quotientPlace digits divisor).toNat / divisor)
      (quotientPlace digits divisor) := by
  by_cases hlast : quotientPlace digits divisor ≤ -1074
  · exact .inr hlast
  · set shift := (-quotientPlace digits divisor).toNat with hshift
    have hbits : divisor.log2 + 1 + 52 ≤ digits.log2 + shift := by
      unfold quotientPlace at hshift hlast
      omega
    -- the dividend is shifted until the quotient has fifty-three bits
    have henough : 2 ^ 52 * divisor ≤ digits * 2 ^ shift :=
      calc 2 ^ 52 * divisor ≤ 2 ^ 52 * 2 ^ (divisor.log2 + 1) :=
            Nat.mul_le_mul_left _ Nat.lt_log2_self.le
        _ = 2 ^ (divisor.log2 + 1 + 52) := by rw [← pow_add, Nat.add_comm]
        _ ≤ 2 ^ (digits.log2 + shift) := Nat.pow_le_pow_right (by decide) hbits
        _ = 2 ^ digits.log2 * 2 ^ shift := pow_add ..
        _ ≤ digits * 2 ^ shift := Nat.mul_le_mul_right _ (Nat.log2_self_le hdigits)
    have hquotient := (Nat.le_div_iff_mul_le hdivisor).2 henough
    exact .inl ((Nat.le_log2 (by omega)).2 hquotient)

/-- A product with fifty-three bits to spare is wide enough. -/
theorem isWide_product (hdigits : digits ≠ 0) (count : Nat) :
    IsWide (digits * 2 ^ 53 * 10 ^ count) (-53) := by
  have hge : 2 ^ 52 ≤ digits * 2 ^ 53 * 10 ^ count :=
    calc 2 ^ 52 ≤ 1 * 2 ^ 53 * 1 := by decide
      _ ≤ digits * 2 ^ 53 * 10 ^ count := by
        gcongr
        · omega
        · exact Nat.one_le_pow _ _ (by decide)
  exact .inl ((Nat.le_log2 (by omega)).2 hge)

/-- A product with a power of ten is exact. -/
theorem standsFor_product (digits : Nat) (hpower : 0 ≤ power) :
    StandsFor (.ofMantissaAndAccuracy (digits * 2 ^ 53 * 10 ^ power.toNat) .exact)
      ((digits : ℚ) * 10 ^ power / 2 ^ (-53 : Int)) := by
  have hten : (10 : ℚ) ^ power = 10 ^ power.toNat := by
    rw [← zpow_natCast, Int.toNat_of_nonneg hpower]
  simp only [StandsFor, ExtendedMantissa.ofMantissaAndAccuracy]
  rw [hten, zpow_neg, div_inv_eq_mul]
  push_cast
  ring

/-- The quotient of naturals is the decimal, counted in units of its place. -/
theorem decimal_eq_quotient (digits : Nat) (hpower : power < 0) {place : Int} (hplace : place ≤ 0) :
    (digits : ℚ) * 10 ^ power / 2 ^ place =
      ((digits * 2 ^ (-place).toNat : Nat) : ℚ) / (10 ^ (-power).toNat : Nat) := by
  have hten : (10 : ℚ) ^ (-power).toNat = 10 ^ (-power) := by
    rw [← zpow_natCast, Int.toNat_of_nonneg (by omega)]
  have htwo : (2 : ℚ) ^ (-place).toNat = 2 ^ (-place) := by
    rw [← zpow_natCast, Int.toNat_of_nonneg (by omega)]
  push_cast
  rw [htwo, hten, zpow_neg, zpow_neg, div_inv_eq_mul, div_eq_mul_inv]
  ring

/-- **Reading a decimal in the interval of a double yields the double.** -/
theorem ofScientific_of_roundsTo (h : RoundsTo mantissa exponent (digits * 10 ^ power))
    (hdouble : IsDouble mantissa exponent) :
    UnpackedFloat.ofScientific .binary64 digits power =
      .finite .positive mantissa exponent hdouble.pos := by
  have hdigits : digits ≠ 0 := by
    rintro rfl
    exact h.ne_zero hdouble (by simp)
  -- a whole number is rounded as a product, any other as a quotient with a rest
  rcases le_or_gt 0 power with hpower | hpower
  · rw [ofScientific_of_nonneg hdigits (h.power_le hdouble hdigits) hpower]
    exact roundWithAccuracy_of_roundsTo h hdouble (isWide_product hdigits _)
      (standsFor_product digits hpower) _
  · have hdivisor : 0 < 10 ^ (-power).toNat := by positivity
    rw [ofScientific_of_neg hdigits (h.le_power hdouble) hpower rfl]
    apply roundWithAccuracy_of_roundsTo h hdouble (isWide_quotient hdigits hdivisor)
    rw [decimal_eq_quotient digits hpower (quotientPlace_nonpos _ _)]
    exact standsFor_quotient _ hdivisor

end Scientific

end Scriptlet.Decimal
