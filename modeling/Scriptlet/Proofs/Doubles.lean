import Mathlib
import Scriptlet.Decimal.Exact

/-! # Doubles as exact numbers

A finite double other than zero is a mantissa of at most 53 bits times a power of two, under a sign.
The mantissa has all 53 bits unless the power is the last one of all, so every such double has only
one mantissa and one exponent.

* `IsDouble mantissa exponent`: the mantissas and exponents of doubles.
* `unpack_pack` and `pack_unpack`: doubles and their parts determine each other.
* `rational?`: the rational number that a double is, if it is one. -/

namespace Scriptlet.Decimal

open Float.Model (UnpackedFloat)
open Float.Model.UnpackedFloat (Sign packComponents unpackSign unpackExponent unpackMantissa
  unpackMantissa_packComponents unpackExponent_packComponents)

/-- A mantissa and an exponent that some double has. -/
structure IsDouble (mantissa : Nat) (exponent : Int) : Prop where
  /-- The mantissa is not zero. -/
  pos : 0 < mantissa
  /-- The mantissa has at most 53 bits. -/
  lt : mantissa < 2 ^ 53
  /-- The exponent does not lie below the last binary place. -/
  low : -1074 ≤ exponent
  /-- The exponent does not lie above that of the greatest double. -/
  high : exponent ≤ 971
  /-- Only at the last binary place does the mantissa have fewer bits. -/
  full : 2 ^ 52 ≤ mantissa ∨ exponent = -1074

/-- The parts into which doubles are taken apart. -/
inductive IsUnpacked : UnpackedFloat → Prop where
  /-- What is not a number. -/
  | notANumber : IsUnpacked .notANumber
  /-- An infinity. -/
  | infinity (sign : Sign) : IsUnpacked (.infinity sign)
  /-- A zero. -/
  | zero (sign : Sign) : IsUnpacked (.zero sign)
  /-- A finite double other than zero. -/
  | finite (sign : Sign) {mantissa : Nat} {exponent : Int} (h : IsDouble mantissa exponent) :
      IsUnpacked (.finite sign mantissa exponent h.pos)

/-! ## The fields of a double -/

/-- The sign is the first of the components that a double is packed from. -/
theorem unpackSign_packComponents (sign : Sign) (exponent : BitVec 11) (fraction : BitVec 52) :
    unpackSign (packComponents .binary64 sign exponent fraction) = sign.toBitVec := by
  ext place hplace
  obtain rfl : place = 0 := by omega
  simp only [unpackSign, packComponents, BitVec.getElem_cast, BitVec.extractLsb,
    BitVec.getElem_extractLsb']
  show (sign.toBitVec ++ exponent ++ fraction).getLsbD 63 = sign.toBitVec[0]
  rw [BitVec.getLsbD_append, if_neg (by decide), BitVec.getLsbD_append, if_neg (by decide)]
  rfl

/-- A sign is read back from its bit. -/
theorem ofBitVec_toBitVec (sign : Sign) : Sign.ofBitVec sign.toBitVec = sign := by
  cases sign <;> rfl

/-- A bit is read back from the sign it stands for. -/
theorem toBitVec_ofBitVec (bit : BitVec 1) : (Sign.ofBitVec bit).toBitVec = bit := by
  revert bit
  decide

/-- The bits of a double are its three fields. -/
theorem packComponents_fields (bits : BitVec 64) :
    packComponents .binary64 (Sign.ofBitVec (@unpackSign .binary64 bits))
      (@unpackExponent .binary64 bits) (@unpackMantissa .binary64 bits) = bits := by
  simp only [packComponents, toBitVec_ofBitVec, unpackSign, unpackExponent, unpackMantissa,
    BitVec.extractLsb]
  ext place hplace
  grind

/-- The hidden bit before a fraction counts two to the power of fifty-two. -/
theorem toNat_one_append (fraction : BitVec 52) :
    (1#1 ++ fraction).toNat = 2 ^ 52 + fraction.toNat := by
  rw [BitVec.toNat_append, ← Nat.shiftLeft_add_eq_or_of_lt fraction.isLt]
  simp [Nat.shiftLeft_eq]

/-- With an exponent field of zeros, the fraction is the whole mantissa. -/
theorem unpack_packComponents_zero (sign : Sign) {fraction : BitVec 52} (h : 0 < fraction.toNat) :
    UnpackedFloat.unpack .binary64 (packComponents .binary64 sign 0#11 fraction) =
      .finite sign fraction.toNat (-1074) h := by
  have hfraction : fraction ≠ 0#52 := by
    rintro rfl
    exact absurd h (by decide)
  unfold UnpackedFloat.unpack
  simp only [unpackMantissa_packComponents, unpackExponent_packComponents,
    unpackSign_packComponents, ofBitVec_toBitVec]
  rw [if_neg (by decide), if_pos trivial, dif_neg hfraction]
  rfl

/-- With any other exponent field but that of ones, the mantissa has one bit more. -/
theorem unpack_packComponents (sign : Sign) {exponent : BitVec 11} (fraction : BitVec 52)
    (hzero : exponent ≠ 0#11) (hones : exponent ≠ -1#11) :
    UnpackedFloat.unpack .binary64 (packComponents .binary64 sign exponent fraction) =
      .finite sign (2 ^ 52 + fraction.toNat) (exponent.toNat - 1075) (by omega) := by
  unfold UnpackedFloat.unpack
  simp only [unpackMantissa_packComponents, unpackExponent_packComponents,
    unpackSign_packComponents, ofBitVec_toBitVec]
  rw [if_neg hones, if_neg hzero]
  simp only [toNat_one_append]
  rfl

/-! ## Taking apart and putting together -/

section Pack

variable {mantissa : Nat} {exponent : Int}

/-- A mantissa below a power of two has a smaller logarithm. -/
theorem log2_lt_of_lt {bits : Nat} (hpos : 0 < mantissa) (h : mantissa < 2 ^ bits) :
    mantissa.log2 < bits :=
  (Nat.log2_lt (by omega)).2 h

/-- A full mantissa has fifty-three bits. -/
theorem IsDouble.log2_eq (h : IsDouble mantissa exponent) (hfull : 2 ^ 52 ≤ mantissa) :
    mantissa.log2 = 52 := by
  have hlow : 52 ≤ mantissa.log2 := (Nat.le_log2 h.pos.ne').2 hfull
  have hhigh := log2_lt_of_lt h.pos h.lt
  omega

/-- A finite double is an infinity, a full mantissa or a short one, by its exponent and length. -/
theorem pack_finite (sign : Sign) (hpos : 0 < mantissa) :
    UnpackedFloat.pack .binary64 (.finite sign mantissa exponent hpos) =
      if 2 ^ 11 ≤ (exponent + 1023 + 52).toNat + 1 then
        Float.Model.UnpackedFloat.packedInfinity .binary64 sign
      else if mantissa.log2 + 1 = 53 then
        packComponents .binary64 sign (BitVec.ofNat 11 (exponent + 1023 + 52).toNat)
          (BitVec.ofNat 52 mantissa)
      else packComponents .binary64 sign 0#11 (BitVec.ofNat 52 mantissa) :=
  rfl

/-- A full mantissa is put together from its fraction and an exponent field. -/
theorem IsDouble.pack_of_full (h : IsDouble mantissa exponent) (hfull : 2 ^ 52 ≤ mantissa)
    (sign : Sign) :
    UnpackedFloat.pack .binary64 (.finite sign mantissa exponent h.pos) =
      packComponents .binary64 sign (BitVec.ofNat 11 (exponent + 1023 + 52).toNat)
        (BitVec.ofNat 52 mantissa) := by
  have hhigh := h.high
  rw [pack_finite, if_neg (by omega), if_pos (by rw [h.log2_eq hfull])]

/-- A shorter mantissa is a fraction behind an exponent field of zeros. -/
theorem pack_of_lt (hpos : 0 < mantissa) (hshort : mantissa < 2 ^ 52) (sign : Sign) :
    UnpackedFloat.pack .binary64 (.finite sign mantissa (-1074) hpos) =
      packComponents .binary64 sign 0#11 (BitVec.ofNat 52 mantissa) := by
  have hlog := log2_lt_of_lt hpos hshort
  rw [pack_finite, if_neg (by decide), if_neg (by omega)]

end Pack

/-- Parts that a double can have are read back from the double they make. -/
theorem IsUnpacked.unpack_pack {parts : UnpackedFloat} (h : IsUnpacked parts) :
    (Float.Model.pack parts).unpack = parts := by
  show UnpackedFloat.unpack .binary64 (UnpackedFloat.pack .binary64 parts) = parts
  cases h with
  | notANumber => rfl
  | infinity sign => cases sign <;> rfl
  | zero sign => cases sign <;> rfl
  | @finite sign mantissa exponent h =>
    -- a full mantissa hides its highest bit; a shorter one has the smallest exponent
    by_cases hfull : 2 ^ 52 ≤ mantissa
    · have hlow := h.low
      have hhigh := h.high
      have hexponent : (BitVec.ofNat 11 (exponent + 1023 + 52).toNat).toNat =
          (exponent + 1023 + 52).toNat := by
        rw [BitVec.toNat_ofNat, Nat.mod_eq_of_lt (by omega)]
      have hmantissa : 2 ^ 52 + (BitVec.ofNat 52 mantissa).toNat = mantissa := by
        have := h.lt
        rw [BitVec.toNat_ofNat]
        omega
      rw [h.pack_of_full hfull, unpack_packComponents]
      · simp only [hexponent, hmantissa]
        congr 1
        omega
      · intro hzero
        rw [hzero, BitVec.toNat_zero] at hexponent
        omega
      · intro hones
        rw [hones] at hexponent
        change 2047 = _ at hexponent
        omega
    · have hmantissa : (BitVec.ofNat 52 mantissa).toNat = mantissa := by
        rw [BitVec.toNat_ofNat, Nat.mod_eq_of_lt (by omega)]
      obtain rfl : exponent = -1074 := h.full.resolve_left hfull
      have hpos := h.pos
      rw [pack_of_lt h.pos (by omega), unpack_packComponents_zero sign (by omega)]
      simp only [hmantissa]

/-- Every double is put together from some parts. -/
theorem exists_pack (model : Float.Model) :
    ∃ parts, IsUnpacked parts ∧ model = Float.Model.pack parts := by
  obtain ⟨word, hvalid⟩ := model
  have hfields := packComponents_fields word.toBitVec
  set sign := Sign.ofBitVec (@unpackSign .binary64 word.toBitVec)
  set exponent : BitVec 11 := @unpackExponent .binary64 word.toBitVec with hexponent
  set fraction : BitVec 52 := @unpackMantissa .binary64 word.toBitVec with hfraction
  suffices h : ∃ parts, IsUnpacked parts ∧
      packComponents .binary64 sign exponent fraction = UnpackedFloat.pack .binary64 parts by
    obtain ⟨parts, hparts, hpack⟩ := h
    refine ⟨parts, hparts, ?_⟩
    rw [hfields] at hpack
    simp only [Float.Model.pack, ← hpack]
  -- the exponent field tells the infinities, the zeros and the last place from other doubles
  by_cases hones : exponent = -1#11
  · by_cases hnone : fraction = 0#52
    · exact ⟨_, .infinity sign, by rw [hones, hnone]; rfl⟩
    · exact ⟨_, .notANumber, hfields.trans (hvalid.eq_packedNaN hones hnone)⟩
  · by_cases hzero : exponent = 0#11
    · by_cases hnone : fraction = 0#52
      · exact ⟨_, .zero sign, by rw [hzero, hnone]; rfl⟩
      · have hpos : 0 < fraction.toNat := by
          rw [Nat.pos_iff_ne_zero, ne_eq, ← BitVec.toNat_zero, BitVec.toNat_inj]
          exact hnone
        have hlt := fraction.isLt
        have hdouble : IsDouble fraction.toNat (-1074) :=
          ⟨hpos, by omega, by decide, by decide, .inr rfl⟩
        refine ⟨_, .finite sign hdouble, ?_⟩
        rw [pack_of_lt hpos hlt, BitVec.ofNat_toNat, BitVec.setWidth_eq, hzero]
    · have hlt := fraction.isLt
      have hlow : exponent.toNat ≠ 0 := fun h => hzero (BitVec.eq_of_toNat_eq h)
      have hhigh : exponent.toNat ≠ 2047 := fun h => hones (BitVec.eq_of_toNat_eq h)
      have hwidth := exponent.isLt
      have hdouble : IsDouble (2 ^ 52 + fraction.toNat) (exponent.toNat - 1075) :=
        ⟨by omega, by omega, by omega, by omega, .inl (by omega)⟩
      refine ⟨_, .finite sign hdouble, ?_⟩
      have hbiased : ((exponent.toNat : Int) - 1075 + 1023 + 52).toNat = exponent.toNat := by omega
      have hrest : BitVec.ofNat 52 (2 ^ 52 + fraction.toNat) = fraction := by
        apply BitVec.eq_of_toNat_eq
        rw [BitVec.toNat_ofNat]
        omega
      rw [hdouble.pack_of_full (by omega), hbiased, hrest, BitVec.ofNat_toNat, BitVec.setWidth_eq]

/-- The parts of a double are such as a double can have. -/
theorem isUnpacked_unpack (model : Float.Model) : IsUnpacked model.unpack := by
  obtain ⟨parts, hparts, rfl⟩ := exists_pack model
  rwa [hparts.unpack_pack]

/-- A double is put together again from its parts. -/
theorem pack_unpack (model : Float.Model) : Float.Model.pack model.unpack = model := by
  obtain ⟨parts, hparts, rfl⟩ := exists_pack model
  rw [hparts.unpack_pack]

/-- A double is put together from its parts again. -/
theorem eq_ofModel_pack {number : Float} {parts : UnpackedFloat}
    (h : number.toModel.unpack = parts) : number = .ofModel (.pack parts) := by
  rw [← h, pack_unpack]

/-- The mantissa and the exponent of a finite double are such as a double can have. -/
theorem isDouble_of_unpack {model : Float.Model} {sign : Sign} {mantissa : Nat} {exponent : Int}
    {hpos : 0 < mantissa} (h : model.unpack = .finite sign mantissa exponent hpos) :
    IsDouble mantissa exponent := by
  have hparts := isUnpacked_unpack model
  rw [h] at hparts
  cases hparts with
  | finite sign hdouble => exact hdouble

/-! ## Exact values -/

/-- The rational number that a double is, if it is finite. -/
def rational? (number : Float) : Option ℚ :=
  match number.toModel.unpack with
  | .notANumber | .infinity _ => none
  | .zero _ => some 0
  | .finite sign mantissa exponent _ => some (sign.apply mantissa * 2 ^ exponent)

/-- A finite double stands for its signed mantissa times a power of two. -/
theorem rational?_of_unpack {number : Float} {sign : Sign} {mantissa : Nat} {exponent : Int}
    {hpos : 0 < mantissa} (h : number.toModel.unpack = .finite sign mantissa exponent hpos) :
    rational? number = some (((sign.apply mantissa : Int) : ℚ) * 2 ^ exponent) := by
  rw [rational?, h]

end Scriptlet.Decimal
