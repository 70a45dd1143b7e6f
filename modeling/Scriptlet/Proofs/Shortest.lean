import Mathlib
import Scriptlet.Proofs.Rounding

/-! # The shortest decimal rounds to its double

The search for the shortest decimal compares naturals, which are rational numbers multiplied by the
missing powers of two and ten. A decimal is taken only from the interval of reals that round to the
double, and a whole double has a whole decimal there before the search reaches finer grids.

* `readsBack_iff`: the comparison of naturals decides whether a decimal rounds to a double.
* `shortest_roundsTo`: the decimal that is found rounds to the double.
* `shortest_exponent_nonneg`: a whole double gets a whole decimal. -/

namespace Scriptlet.Decimal

variable {mantissa : Nat} {exponent power : Int}

/-! ## Scaled comparisons -/

/-- The power that makes both sides of a comparison natural. -/
def missing (exponent power : Int) : ℚ :=
  2 ^ (2 - exponent).toNat * 10 ^ (-power).toNat

/-- The power that makes both sides natural is positive. -/
theorem missing_pos (exponent power : Int) : 0 < missing exponent power := by
  unfold missing
  positivity

/-- A power with a natural exponent is the missing power times the power with the integer one. -/
theorem pow_toNat {base : ℚ} (hbase : base ≠ 0) (power : Int) :
    base ^ power.toNat = base ^ power * base ^ (-power).toNat := by
  rw [← zpow_natCast, ← zpow_natCast, ← zpow_add₀ hbase]
  congr 1
  omega

/-- The scaled count of quarter units is what it stands for, times the missing power. -/
theorem quarterSide_eq (exponent power : Int) (quarters : Nat) :
    (quarterSide exponent power quarters : ℚ) =
      quarters / 4 * 2 ^ exponent * missing exponent power := by
  have hpow := pow_toNat (two_ne_zero (α := ℚ)) (exponent - 2)
  rw [neg_sub, zpow_sub₀ two_ne_zero] at hpow
  simp only [quarterSide, missing, Nat.pow_eq]
  push_cast
  rw [hpow]
  ring

/-- The scaled multiple of a power of ten is what it stands for, times the missing power. -/
theorem gridSide_eq (exponent power : Int) (multiple : Nat) :
    (gridSide exponent power multiple : ℚ) = multiple * 10 ^ power * missing exponent power := by
  have hpow := pow_toNat (by norm_num : (10 : ℚ) ≠ 0) power
  simp only [gridSide, missing, Nat.pow_eq]
  push_cast
  rw [hpow]
  ring

section Sides

variable {quarters multiple : Nat}

/-- Scaling leaves the order of quarter units and a multiple as it is. -/
theorem quarterSide_le_gridSide :
    quarterSide exponent power quarters ≤ gridSide exponent power multiple ↔
      (quarters : ℚ) / 4 * 2 ^ exponent ≤ multiple * 10 ^ power := by
  rw [← Nat.cast_le (α := ℚ), quarterSide_eq, gridSide_eq,
    mul_le_mul_iff_left₀ (missing_pos exponent power)]

/-- Scaling leaves the order of a multiple and quarter units as it is. -/
theorem gridSide_le_quarterSide :
    gridSide exponent power multiple ≤ quarterSide exponent power quarters ↔
      (multiple : ℚ) * 10 ^ power ≤ quarters / 4 * 2 ^ exponent := by
  rw [← Nat.cast_le (α := ℚ), quarterSide_eq, gridSide_eq,
    mul_le_mul_iff_left₀ (missing_pos exponent power)]

end Sides

/-- The comparison of naturals decides whether a decimal rounds to a double. -/
theorem readsBack_iff (mantissa : Nat) (exponent power : Int) (multiple : Nat) :
    readsBack mantissa exponent power multiple = true ↔
      RoundsTo mantissa exponent (multiple * 10 ^ power) := by
  rw [readsBack]
  -- the ends of the interval belong to it just if the mantissa is even
  by_cases heven : mantissa % 2 = 0
  · simp only [if_pos heven, Bool.and_eq_true, decide_eq_true_eq, quarterSide_le_gridSide,
      gridSide_le_quarterSide]
    exact ⟨fun ⟨hlow, hhigh⟩ => ⟨hlow, hhigh, fun _ => heven⟩, fun h => ⟨h.low, h.high⟩⟩
  · simp only [if_neg heven, Bool.and_eq_true, decide_eq_true_eq, ← not_le,
      quarterSide_le_gridSide, gridSide_le_quarterSide]
    simp only [not_le]
    constructor
    · rintro ⟨hlow, hhigh⟩
      exact ⟨hlow.le, hhigh.le, fun hend => (hend.elim hlow.ne' hhigh.ne).elim⟩
    · intro h
      exact ⟨h.low.lt_of_ne fun hend => heven (h.even (.inl hend.symm)),
        h.high.lt_of_ne fun hend => heven (h.even (.inr hend))⟩

/-! ## The search -/

/-- A multiple that is found reads back. -/
theorem readsBack_of_multiple? {multiple : Nat}
    (h : multiple? mantissa exponent power = some multiple) :
    readsBack mantissa exponent power multiple = true := by
  unfold multiple? at h
  dsimp only at h
  -- neither neighbour reads back, one of them does, or both do and the nearer one is taken
  split at h
  · cases h
  · rename_i hbelow _
    cases h
    exact hbelow
  · rename_i habove
    cases h
    exact habove
  · rename_i hbelow habove
    split at h
    · cases h
      exact hbelow
    · cases h
      exact habove

/-- The exact decimal is worth what the mantissa and the exponent are. -/
theorem exactDecimal_eq (mantissa : Nat) (exponent : Int) :
    ((exactDecimal mantissa exponent).digits : ℚ) * 10 ^ (exactDecimal mantissa exponent).exponent =
      mantissa * 2 ^ exponent := by
  have hpower : min exponent 0 = -((-exponent).toNat : Int) := by omega
  have hten : (10 : ℚ) ^ (-exponent).toNat = 2 ^ (-exponent).toNat * 5 ^ (-exponent).toNat := by
    rw [← mul_pow]
    norm_num
  simp only [exactDecimal, Nat.pow_eq]
  push_cast
  rw [hpower, zpow_neg, zpow_natCast, hten, pow_toNat two_ne_zero]
  field_simp

/-- Whatever grids are tried, the decimal that is found rounds to the double. -/
theorem searchGrid_roundsTo (h : IsDouble mantissa exponent) (steps : Nat) (power : Int) :
    RoundsTo mantissa exponent ((searchGrid mantissa exponent steps power).digits *
      10 ^ (searchGrid mantissa exponent steps power).exponent) := by
  induction steps generalizing power with
  | zero =>
    rw [searchGrid, exactDecimal_eq]
    exact h.roundsTo
  | succ steps ih =>
    rw [searchGrid]
    cases hfound : multiple? mantissa exponent power with
    | none => exact ih (power - 1)
    | some multiple => exact (readsBack_iff _ _ _ _).1 (readsBack_of_multiple? hfound)

/-- The shortest decimal lies in the interval of its double. -/
theorem shortest_roundsTo (h : IsDouble mantissa exponent) :
    RoundsTo mantissa exponent
      ((shortest mantissa exponent).digits * 10 ^ (shortest mantissa exponent).exponent) :=
  searchGrid_roundsTo h _ _

/-! ## Whole numbers -/

/-- A whole double is found among the whole decimals. -/
theorem multiple?_zero_ne_none (h : IsDouble mantissa exponent) {whole : Nat}
    (hwhole : (mantissa : ℚ) * 2 ^ exponent = whole) : multiple? mantissa exponent 0 ≠ none := by
  have hunit : (gridSide exponent 0 1 : ℚ) = missing exponent 0 := by
    rw [gridSide_eq, Nat.cast_one, one_mul, zpow_zero, one_mul]
  have hvalue : quarterSide exponent 0 (4 * mantissa) = whole * gridSide exponent 0 1 := by
    rw [← Nat.cast_inj (R := ℚ), Nat.cast_mul, hunit, quarterSide_eq, ← hwhole]
    push_cast
    ring
  have hpos : 0 < gridSide exponent 0 1 := by
    rw [← Nat.cast_pos (α := ℚ), hunit]
    exact missing_pos exponent 0
  have hbelow : quarterSide exponent 0 (4 * mantissa) / gridSide exponent 0 1 = whole := by
    rw [hvalue, Nat.mul_div_cancel _ hpos]
  -- the double itself is a point of the grid
  have hback : readsBack mantissa exponent 0 whole = true := by
    rw [readsBack_iff, zpow_zero, mul_one, ← hwhole]
    exact h.roundsTo
  unfold multiple?
  dsimp only
  rw [hbelow, hback]
  cases readsBack mantissa exponent 0 (whole + 1) with
  | false => exact Option.some_ne_none _
  | true =>
    dsimp only
    split <;> exact Option.some_ne_none _

/-- As long as the grids are whole, a whole double is found on one of them. -/
theorem searchGrid_exponent_nonneg (h : IsDouble mantissa exponent) {whole : Nat}
    (hwhole : (mantissa : ℚ) * 2 ^ exponent = whole) (steps : Nat) {power : Int}
    (hpower : 0 ≤ power) (hsteps : power - min exponent 0 ≤ steps) :
    0 ≤ (searchGrid mantissa exponent steps power).exponent := by
  induction steps generalizing power with
  | zero =>
    -- the steps do not end before the last place of the exact decimal
    rw [searchGrid, exactDecimal]
    show 0 ≤ min exponent 0
    omega
  | succ steps ih =>
    rw [searchGrid]
    cases hfound : multiple? mantissa exponent power with
    | none =>
      -- the grid of all whole numbers is not passed over, so the next one is whole again
      have hne : power ≠ 0 := by
        rintro rfl
        exact multiple?_zero_ne_none h hwhole hfound
      exact ih (by omega) (by omega)
    | some multiple => exact hpower

/-- A whole double has a bit before the point. -/
theorem log2_add_nonneg (h : IsDouble mantissa exponent) {whole : Nat}
    (hwhole : (mantissa : ℚ) * 2 ^ exponent = whole) : 0 ≤ mantissa.log2 + exponent := by
  have hlog : (mantissa : ℚ) < 2 ^ (mantissa.log2 + 1) := by exact_mod_cast Nat.lt_log2_self
  have hone : (1 : ℚ) ≤ mantissa * 2 ^ exponent := by
    have hpos := h.value_pos
    rw [hwhole] at hpos ⊢
    exact_mod_cast hpos
  -- a positive whole number is at least one, so the bits do not end below the units
  have hpow : (2 : ℚ) ^ (0 : Int) < 2 ^ (mantissa.log2 + 1 + exponent) :=
    calc (2 : ℚ) ^ (0 : Int) ≤ mantissa * 2 ^ exponent := by rwa [zpow_zero]
      _ < 2 ^ (mantissa.log2 + 1) * 2 ^ exponent :=
          mul_lt_mul_of_pos_right hlog (two_zpow_pos exponent)
      _ = 2 ^ (mantissa.log2 + 1 + exponent) := by
          rw [← zpow_natCast, ← zpow_add₀ two_ne_zero]
          push_cast
          rfl
  have hbits := (zpow_lt_zpow_iff_right₀ (by norm_num)).1 hpow
  omega

/-- The shortest decimal of a whole number has no places. -/
theorem shortest_exponent_nonneg (h : IsDouble mantissa exponent) {whole : Nat}
    (hwhole : (mantissa : ℚ) * 2 ^ exponent = whole) :
    0 ≤ (shortest mantissa exponent).exponent := by
  have hbits := log2_add_nonneg h hwhole
  have htop : 0 ≤ topPower mantissa exponent := by
    rw [topPower]
    split <;> omega
  exact searchGrid_exponent_nonneg h hwhole _ htop (by omega)

end Scriptlet.Decimal
