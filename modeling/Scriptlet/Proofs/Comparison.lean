import Mathlib
import Scriptlet.Proofs.Rounding
import Scriptlet.Value.Operation

/-! # Laws of comparison

Values lie in one line: first the numbers with an infinity at either end, then the booleans, then
the strings. Two values are compared by their places in this line, except that what is not a number
has no place among the numbers, so it is not ordered with them.

* `place`: where a value lies.
* `compare?_eq`: values are compared by their places, unless they are not ordered.
* `comparison_laws`: how the six comparison operators depend on one another. -/

namespace Scriptlet

namespace Decimal

open Float.Model (UnpackedFloat)
open Float.Model.UnpackedFloat (Sign)

/-! ## The order of numbers -/

/-- The rational numbers with an infinity at either end. -/
abbrev Extended : Type := WithBot (WithTop ℚ)

/-- The number that the parts of a double make up. What is not a number has no place of its own and
is put beside zero. -/
def extended : UnpackedFloat → Extended
  | .notANumber | .zero _ => ((0 : ℚ) : WithTop ℚ)
  | .infinity .positive => (⊤ : WithTop ℚ)
  | .infinity .negative => ⊥
  | .finite sign mantissa exponent _ => ((sign.apply mantissa * 2 ^ exponent : ℚ) : WithTop ℚ)

/-- A greater exponent makes a greater double, whatever the mantissas are. -/
theorem IsDouble.lt_of_exponent_lt {mantissa mantissa' : Nat} {exponent exponent' : Int}
    (h : IsDouble mantissa exponent) (h' : IsDouble mantissa' exponent')
    (hlt : exponent < exponent') :
    (mantissa : ℚ) * 2 ^ exponent < mantissa' * 2 ^ exponent' := by
  have hlow := h.low
  have hfull : (2 ^ 52 : ℚ) ≤ mantissa' := by exact_mod_cast h'.full.resolve_right (by omega)
  have hsmall : (mantissa : ℚ) < 2 ^ 53 := by exact_mod_cast h.lt
  -- the lesser mantissa has at most fifty-three bits, the greater one all of them
  calc (mantissa : ℚ) * 2 ^ exponent
      < 2 ^ 53 * 2 ^ exponent := mul_lt_mul_of_pos_right hsmall (two_zpow_pos exponent)
    _ = 2 ^ 52 * 2 ^ (exponent + 1) := by rw [zpow_add_one₀ (by norm_num)]; ring
    _ ≤ 2 ^ 52 * 2 ^ exponent' := by gcongr <;> [norm_num; omega]
    _ ≤ mantissa' * 2 ^ exponent' := by gcongr

/-- A map that keeps the order keeps comparisons. -/
theorem compare_map {α β : Type} [LinearOrder α] [LinearOrder β] {f : α → β} (h : StrictMono f)
    (left right : α) : compare (f left) (f right) = compare left right := by
  rw [← cmp_eq_compare, ← cmp_eq_compare, h.cmp_map_eq]

/-- The order of two things, seen from the other, is turned round. -/
theorem compare_swap {α : Type} [LinearOrder α] (left right : α) :
    (compare left right).swap = compare right left := by
  rw [← cmp_eq_compare, ← cmp_eq_compare, cmp_swap]

/-- Negation turns the order of rationals round. -/
theorem compare_neg (left right : ℚ) : compare (-left) (-right) = (compare left right).swap := by
  have hanti : StrictAnti (fun value : ℚ => -value) := fun _ _ h => neg_lt_neg h
  rw [compare_swap, ← cmp_eq_compare, ← cmp_eq_compare]
  exact hanti.cmp_map_eq left right

/-- Doubles are compared by their exponents first and their mantissas next. -/
theorem IsDouble.compare_eq {mantissa mantissa' : Nat} {exponent exponent' : Int}
    (h : IsDouble mantissa exponent) (h' : IsDouble mantissa' exponent') :
    (compare exponent exponent').then (compare mantissa mantissa') =
      compare ((mantissa : ℚ) * 2 ^ exponent) (mantissa' * 2 ^ exponent') := by
  rcases lt_trichotomy exponent exponent' with hlt | rfl | hgt
  -- a full mantissa outweighs every one with a smaller exponent, so exponents decide first
  · rw [compare_lt_iff_lt.2 hlt, compare_lt_iff_lt.2 (h.lt_of_exponent_lt h' hlt)]
    rfl
  · have hpos := two_zpow_pos exponent
    rw [compare_eq_iff_eq.2 rfl, Ordering.eq_then]
    rcases lt_trichotomy mantissa mantissa' with hlt | rfl | hgt
    · rw [compare_lt_iff_lt.2 hlt, eq_comm, compare_lt_iff_lt]
      exact mul_lt_mul_of_pos_right (by exact_mod_cast hlt) hpos
    · rw [compare_eq_iff_eq.2 rfl, compare_eq_iff_eq.2 rfl]
    · rw [compare_gt_iff_gt.2 hgt, eq_comm, compare_gt_iff_gt]
      exact mul_lt_mul_of_pos_right (by exact_mod_cast hgt) hpos
  · rw [compare_gt_iff_gt.2 hgt, compare_gt_iff_gt.2 (h'.lt_of_exponent_lt h hgt)]
    rfl

/-- Rationals stand among the extended ones in their own order. -/
theorem compare_coe (left right : ℚ) :
    compare ((left : WithTop ℚ) : Extended) (right : WithTop ℚ) = compare left right :=
  compare_map (WithBot.coe_strictMono.comp WithTop.coe_strictMono) left right

/-- Finite doubles other than zero are compared as rational numbers. -/
theorem compare_finite {mantissa mantissa' : Nat} {exponent exponent' : Int}
    (h : IsDouble mantissa exponent) (h' : IsDouble mantissa' exponent') (sign sign' : Sign) :
    UnpackedFloat.compare (.finite sign mantissa exponent h.pos)
        (.finite sign' mantissa' exponent' h'.pos) =
      some (compare (((sign.apply mantissa : Int) : ℚ) * 2 ^ exponent)
        (((sign'.apply mantissa' : Int) : ℚ) * 2 ^ exponent')) := by
  -- both are positive before their signs, so different signs settle the order
  have hpos := h.value_pos
  have hpos' := h'.value_pos
  cases sign with
  | positive =>
    cases sign' with
    | positive =>
      simp only [UnpackedFloat.compare, Sign.apply, Int.cast_natCast, h.compare_eq h']
    | negative =>
      simp only [UnpackedFloat.compare, Sign.apply, Int.cast_neg, Int.cast_natCast, neg_mul]
      rw [compare_gt_iff_gt.2 (by linarith)]
  | negative =>
    cases sign' with
    | positive =>
      simp only [UnpackedFloat.compare, Sign.apply, Int.cast_neg, Int.cast_natCast, neg_mul]
      rw [compare_lt_iff_lt.2 (by linarith)]
    | negative =>
      simp only [UnpackedFloat.compare, Sign.apply, Int.cast_neg, Int.cast_natCast, neg_mul,
        compare_neg, h.compare_eq h']

/-- A finite double other than zero lies on the side of zero that its sign tells. -/
theorem compare_zero {mantissa : Nat} {exponent : Int} (h : IsDouble mantissa exponent)
    (sign zeroSign : Sign) :
    UnpackedFloat.compare (.finite sign mantissa exponent h.pos) (.zero zeroSign) =
        some (compare (((sign.apply mantissa : Int) : ℚ) * 2 ^ exponent) 0) ∧
      UnpackedFloat.compare (.zero zeroSign) (.finite sign mantissa exponent h.pos) =
        some (compare 0 (((sign.apply mantissa : Int) : ℚ) * 2 ^ exponent)) := by
  have hpos := h.value_pos
  cases sign with
  | positive =>
    simp only [UnpackedFloat.compare, Sign.apply, Int.cast_natCast]
    rw [compare_gt_iff_gt.2 hpos, compare_lt_iff_lt.2 hpos]
    exact ⟨rfl, rfl⟩
  | negative =>
    simp only [UnpackedFloat.compare, Sign.apply, Int.cast_neg, Int.cast_natCast, neg_mul]
    rw [compare_lt_iff_lt.2 (by linarith), compare_gt_iff_gt.2 (by linarith)]
    exact ⟨rfl, rfl⟩

/-- The parts of doubles are compared as the numbers that they make up. -/
theorem compare_parts {left right : UnpackedFloat} (hleft : IsUnpacked left)
    (hright : IsUnpacked right) :
    left.compare right =
      if left.isNaN || right.isNaN then none
      else some (compare (extended left) (extended right)) := by
  have hless {x y : Extended} (h : x < y) : some Ordering.lt = some (compare x y) :=
    congrArg some (compare_lt_iff_lt.2 h).symm
  have hmore {x y : Extended} (h : y < x) : some Ordering.gt = some (compare x y) :=
    congrArg some (compare_gt_iff_gt.2 h).symm
  -- only two finite numbers need arithmetic: infinities and zeros are placed by their signs
  cases hleft with
  | notANumber => rfl
  | infinity sign =>
    cases hright with
    | notANumber => cases sign <;> rfl
    | infinity sign' => cases sign <;> cases sign' <;> decide
    | zero sign' => cases sign <;> cases sign' <;> decide
    | finite sign' h' =>
      cases sign with
      | positive => exact hmore (WithBot.coe_lt_coe.2 (WithTop.coe_lt_top _))
      | negative => exact hless (WithBot.bot_lt_coe _)
  | zero sign =>
    cases hright with
    | notANumber => rfl
    | infinity sign' => cases sign <;> cases sign' <;> decide
    | zero sign' => cases sign <;> cases sign' <;> decide
    | finite sign' h' =>
      rw [(compare_zero h' sign' sign).2, ← compare_coe]
      rfl
  | finite sign h =>
    cases hright with
    | notANumber => rfl
    | infinity sign' =>
      cases sign' with
      | positive => exact hless (WithBot.coe_lt_coe.2 (WithTop.coe_lt_top _))
      | negative => exact hmore (WithBot.bot_lt_coe _)
    | zero sign' =>
      rw [(compare_zero h sign sign').1, ← compare_coe]
      rfl
    | finite sign' h' =>
      rw [compare_finite h h', ← compare_coe]
      rfl

end Decimal

namespace Value

open Decimal

/-- A number is less than another if the comparison of doubles says so. -/
theorem number_lt_iff (left right : Float) :
    left < right ↔ left.toModel.unpack.compare right.toModel.unpack = some .lt :=
  decide_eq_true_iff.trans beq_iff_eq

/-- A number equals another if the comparison of doubles says so. -/
theorem number_beq_iff (left right : Float) :
    (left == right) = true ↔ left.toModel.unpack.compare right.toModel.unpack = some .eq := by
  show (left.toModel.unpack.compare right.toModel.unpack == some .eq) = true ↔ _
  exact beq_iff_eq

/-- Two numbers are compared as the numbers that they make up, unless one is not a number. -/
theorem compareNumbers?_eq (left right : Float) :
    compareNumbers? left right =
      if left.isNaN || right.isNaN then none
      else some (compare (extended left.toModel.unpack) (extended right.toModel.unpack)) := by
  have hforth := compare_parts (isUnpacked_unpack left.toModel) (isUnpacked_unpack right.toModel)
  have hback := compare_parts (isUnpacked_unpack right.toModel) (isUnpacked_unpack left.toModel)
  rw [Bool.or_comm] at hback
  simp only [compareNumbers?, number_lt_iff, number_beq_iff, hforth, hback]
  change _ = if left.toModel.unpack.isNaN || right.toModel.unpack.isNaN then _ else _
  cases left.toModel.unpack.isNaN || right.toModel.unpack.isNaN with
  | true => rfl
  | false =>
    -- less, equal and greater are asked for in turn; the last one is less, turned round
    rw [← compare_swap (extended left.toModel.unpack)]
    cases compare (extended left.toModel.unpack) (extended right.toModel.unpack) <;> rfl

/-! ## The line of all values -/

/-- Two numbers are not ordered if one of them is not a number. -/
def unordered : Value → Value → Bool
  | .number left, .number right => left.isNaN || right.isNaN
  | _, _ => false

/-- Where a value lies: numbers come before booleans and booleans before strings. -/
def place : Value → Extended ⊕ₗ (Bool ⊕ₗ String)
  | .number value => Sum.inlₗ (extended value.toModel.unpack)
  | .boolean value => Sum.inrₗ (Sum.inlₗ value)
  | .string value => Sum.inrₗ (Sum.inrₗ value.content)

/-- Values are compared by their places, unless they are not ordered. -/
theorem compare?_eq (left right : Value) :
    compare? left right =
      if left.unordered right then none else some (compare left.place right.place) := by
  have hbefore {left right : Value} (h : left.place < right.place) :
      some Ordering.lt = some (compare left.place right.place) :=
    congrArg some (compare_lt_iff_lt.2 h).symm
  have hbehind {left right : Value} (h : right.place < left.place) :
      some Ordering.gt = some (compare left.place right.place) :=
    congrArg some (compare_gt_iff_gt.2 h).symm
  -- values of two kinds are placed by their kinds, and values of one kind by the order of that kind
  cases left with
  | number x =>
    cases right with
    | number y =>
      rw [compare?, compareNumbers?_eq,
        ← compare_map (Sum.Lex.inl_strictMono (β := Bool ⊕ₗ String))]
      rfl
    | boolean y => exact hbefore (Sum.Lex.inl_lt_inr _ _)
    | string y => exact hbefore (Sum.Lex.inl_lt_inr _ _)
  | boolean x =>
    cases right with
    | number y => exact hbehind (Sum.Lex.inl_lt_inr _ _)
    | boolean y => cases x <;> cases y <;> decide
    | string y => exact hbefore (Sum.Lex.inr_lt_inr_iff.2 (Sum.Lex.inl_lt_inr _ _))
  | string x =>
    cases right with
    | number y => exact hbehind (Sum.Lex.inl_lt_inr _ _)
    | boolean y => exact hbehind (Sum.Lex.inr_lt_inr_iff.2 (Sum.Lex.inl_lt_inr _ _))
    | string y =>
      rw [compare?, place, place, compare_map Sum.Lex.inr_strictMono,
        compare_map Sum.Lex.inr_strictMono, LinearOrder.compare_eq_compareOfLessAndEq]
      rfl

/-- Values are equal when they are ordered and neither comes before the other. -/
theorem equal_iff_compare? (left right : Value) :
    left.equal right = true ↔ compare? left right = some .eq := by
  cases left with
  -- values of different kinds are neither equal nor in order
  | number x =>
    cases right with
    | number y =>
      have hforth := compare_parts (isUnpacked_unpack x.toModel) (isUnpacked_unpack y.toModel)
      rw [equal, compare?, number_beq_iff, hforth, compareNumbers?_eq]
      rfl
    | boolean y => exact iff_of_false nofun nofun
    | string y => exact iff_of_false nofun nofun
  | boolean x =>
    cases right with
    | number y => exact iff_of_false nofun nofun
    | boolean y => cases x <;> cases y <;> decide
    | string y => exact iff_of_false nofun nofun
  | string x =>
    cases right with
    | number y => exact iff_of_false nofun nofun
    | boolean y => exact iff_of_false nofun nofun
    | string y =>
      rw [equal, beq_iff_eq, compare?, Option.some_inj, ← LinearOrder.compare_eq_compareOfLessAndEq,
        compare_eq_iff_eq]

section Places

variable {left right : Value}

/-- Two values are ordered if neither is unordered, and then as their places are. -/
theorem compare?_eq_some_iff {order : Ordering} :
    compare? left right = some order ↔
      left.unordered right = false ∧ compare left.place right.place = order := by
  rw [compare?_eq]
  cases left.unordered right <;> simp

/-- A test of the order succeeds if the values are ordered and the order of their places passes
it. -/
theorem any_compare? {test : Ordering → Bool} :
    (compare? left right).any test = true ↔
      left.unordered right = false ∧ test (compare left.place right.place) = true := by
  rw [compare?_eq]
  cases left.unordered right <;> simp

/-- Whether two values are unordered does not depend on which comes first. -/
theorem unordered_comm (left right : Value) : left.unordered right = right.unordered left := by
  cases left <;> cases right <;> try rfl
  exact Bool.or_comm _ _

/-- What is ordered with a value in between is ordered: only numbers come before a number. -/
theorem unordered_trans {middle : Value} (hleft : left.unordered middle = false)
    (hright : middle.unordered right = false) (h : middle.place ≤ right.place) :
    left.unordered right = false := by
  cases left with
  | boolean | string => rfl
  | number x =>
    cases right with
    | boolean | string => rfl
    | number y =>
      cases middle with
      -- what is not a number comes behind all numbers, so it is not in the middle
      | boolean z => exact absurd h (not_le.2 (Sum.Lex.inl_lt_inr _ _))
      | string z => exact absurd h (not_le.2 (Sum.Lex.inl_lt_inr _ _))
      | number z =>
        simp only [unordered, Bool.or_eq_false_iff] at hleft hright ⊢
        exact ⟨hleft.1, hright.2⟩

end Places

end Value

namespace Operator

open Value
open Decimal (notANumber)

/-! ## The operators -/

/-- The operators that compare two values. -/
def comparisons : List Operator :=
  [.equal, .differ, .less, .lessEqual, .greater, .greaterEqual]

/-- A comparison says that two values stand in its relation. -/
def Holds (op : Operator) (left right : Value) : Prop :=
  op.binary left right = .ok (.boolean true)

/-- Whether a comparison holds is decided by running it. -/
instance (op : Operator) (left right : Value) : Decidable (op.Holds left right) :=
  inferInstanceAs (Decidable (op.binary left right = .ok (.boolean true)))

/-- A comparison that answers holds if it answers so. -/
theorem holds_iff {op : Operator} {left right : Value} {truth : Bool}
    (h : op.binary left right = .ok (.boolean truth)) : op.Holds left right ↔ truth = true := by
  simp [Holds, h]

section Holds

variable {left right : Value}

/-- A value is less than another if both are ordered and its place is below. -/
theorem holds_less :
    Holds .less left right ↔ left.unordered right = false ∧ left.place < right.place := by
  rw [holds_iff rfl, Value.less, beq_iff_eq, compare?_eq_some_iff, compare_lt_iff_lt]

/-- A value is greater than another if both are ordered and its place is above. -/
theorem holds_greater :
    Holds .greater left right ↔ left.unordered right = false ∧ right.place < left.place := by
  rw [holds_iff rfl, Value.greater, beq_iff_eq, compare?_eq_some_iff, compare_gt_iff_gt]

/-- A value is at most another if both are ordered and its place is not above. -/
theorem holds_lessEqual :
    Holds .lessEqual left right ↔ left.unordered right = false ∧ left.place ≤ right.place := by
  rw [holds_iff rfl, Value.lessEqual, any_compare?, Ordering.isLE_iff_ne_gt, compare_gt_iff_gt,
    not_lt]

/-- A value is at least another if both are ordered and its place is not below. -/
theorem holds_greaterEqual :
    Holds .greaterEqual left right ↔ left.unordered right = false ∧ right.place ≤ left.place := by
  rw [holds_iff rfl, Value.greaterEqual, any_compare?, Ordering.isGE_iff_ne_lt, compare_lt_iff_lt,
    not_lt]

/-- A value equals another if both are ordered and stand in one place. -/
theorem holds_equal :
    Holds .equal left right ↔ left.unordered right = false ∧ left.place = right.place := by
  rw [holds_iff rfl, equal_iff_compare?, compare?_eq_some_iff, compare_eq_iff_eq]

end Holds

/-- **The laws of comparison.** All comparisons of all values have an answer. Before and behind are
converses, and so are the two that admit equality; these mean before or equal, and unequal means not
equal. Equality is symmetric and transitive, and coming before is irreflexive and transitive. Just
one of before, equal and behind holds, unless both values are numbers and one is not a number.
Numbers come before booleans and booleans before strings. -/
theorem comparison_laws (a b c : Value) :
    (∀ op ∈ comparisons, ∃ truth, op.binary a b = .ok (.boolean truth)) ∧
    (Holds .less a b ↔ Holds .greater b a) ∧
    (Holds .lessEqual a b ↔ Holds .greaterEqual b a) ∧
    (Holds .lessEqual a b ↔ Holds .less a b ∨ Holds .equal a b) ∧
    (Holds .differ a b ↔ ¬ Holds .equal a b) ∧
    (Holds .equal a b → Holds .equal b a) ∧
    (Holds .equal a b → Holds .equal b c → Holds .equal a c) ∧
    ¬ Holds .less a a ∧
    (Holds .less a b → Holds .less b c → Holds .less a c) ∧
    (a.unordered b = false →
      (Holds .less a b ∧ ¬ Holds .equal a b ∧ ¬ Holds .greater a b) ∨
      (¬ Holds .less a b ∧ Holds .equal a b ∧ ¬ Holds .greater a b) ∨
      (¬ Holds .less a b ∧ ¬ Holds .equal a b ∧ Holds .greater a b)) ∧
    (a.kind = .number → b.kind = .boolean → c.kind = .string →
      Holds .less a b ∧ Holds .less b c ∧ Holds .less a c) := by
  refine ⟨?_, ?_, ?_, ?_, ?_, ?_, ?_, ?_, ?_, ?_, ?_⟩
  · intro op hop
    fin_cases hop <;> exact ⟨_, rfl⟩
  · rw [holds_less, holds_greater, unordered_comm]
  · rw [holds_lessEqual, holds_greaterEqual, unordered_comm]
  -- every law is one of the linear order of places, where both values have one
  · rw [holds_lessEqual, holds_less, holds_equal, ← and_or_left, ← le_iff_lt_or_eq]
  · rw [holds_iff rfl, holds_iff rfl, Bool.not_eq_true', Bool.not_eq_true]
  · rw [holds_equal, holds_equal, unordered_comm]
    exact And.imp_right Eq.symm
  · rw [holds_equal, holds_equal, holds_equal]
    rintro ⟨hab, hplace⟩ ⟨hbc, hplace'⟩
    exact ⟨unordered_trans hab hbc hplace'.le, hplace.trans hplace'⟩
  · rw [holds_less]
    exact fun h => lt_irrefl _ h.2
  · rw [holds_less, holds_less, holds_less]
    rintro ⟨hab, hplace⟩ ⟨hbc, hplace'⟩
    exact ⟨unordered_trans hab hbc hplace'.le, hplace.trans hplace'⟩
  -- without NaN the two places compare in one of three ways
  · intro hordered
    simp only [holds_less, holds_equal, holds_greater, hordered, true_and]
    rcases lt_trichotomy a.place b.place with h | h | h
    · exact .inl ⟨h, h.ne, h.not_gt⟩
    · exact .inr (.inl ⟨h.not_lt, h, h.not_gt⟩)
    · exact .inr (.inr ⟨h.not_gt, h.ne', h⟩)
  · intro ha hb hc
    cases a <;> cases ha
    cases b <;> cases hb
    cases c <;> cases hc
    exact ⟨rfl, rfl, rfl⟩

/-- What is not a number comes before a boolean and a string, and the two zeros are equal. -/
theorem comparison_laws_of_outliers :
    let outlier := Value.number notANumber
    let zero := Value.number 0.0
    let opposite := Value.number (-0.0)
    (outlier.unordered (.boolean false) = false ∧ Holds .less outlier (.boolean false) ∧
      Holds .less (.boolean false) (.string ⟨"", 0⟩) ∧ Holds .less outlier (.string ⟨"", 0⟩)) ∧
    Holds .equal zero opposite ∧ Holds .equal opposite zero := by
  intro outlier zero opposite
  have hequal : Holds .equal zero opposite := by decide
  obtain ⟨-, -, -, -, -, -, -, -, -, -, hkinds⟩ :=
    comparison_laws outlier (.boolean false) (.string ⟨"", 0⟩)
  obtain ⟨-, -, -, -, -, hsymm, -⟩ := comparison_laws zero opposite zero
  exact ⟨⟨rfl, hkinds rfl rfl rfl⟩, hequal, hsymm hequal⟩

end Operator

end Scriptlet
