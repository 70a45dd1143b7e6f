import Mathlib
import Scriptlet.Proofs.Cutting
import Scriptlet.Value.Operation

/-! # Bitwise operations

Bitwise operators cut both numbers toward zero, hold them within 32 bits, work on the bits and turn
the result into a number again. All integers of 32 bits are doubles, so the result is cut to itself
and the laws of bits are laws of the operators.

* `meet`, `join`: the numbers of the bits that two numbers share, or that one of them has.
* `bitwise_laws`: the operators on numbers are the operations on 32 bits. -/

namespace Scriptlet

namespace Operator

open Decimal

/-! ## Operations on bits -/

/-- The 32 bits of the integer that a number is cut to. -/
def bits (number : Float) : BitVec 32 :=
  BitVec.ofInt 32 (toInt32 number)

/-- The number of the bits that two numbers share. -/
def meet (left right : Float) : Float :=
  onBits (· &&& ·) left right

/-- The number of the bits that one of two numbers has. -/
def join (left right : Float) : Float :=
  onBits (· ||| ·) left right

/-- The word of a number, read with its sign, is the number cut to the range of words. -/
theorem toInt_bits (number : Float) : (bits number).toInt = toInt32 number := by
  obtain ⟨hlow, hhigh⟩ := toInt32_bounds number
  unfold int32Min at hlow
  unfold int32Max at hhigh
  exact BitVec.toInt_ofInt_eq_self (by decide) (by omega) (by omega)

/-- A word, read with its sign, stands in the range of thirty-two bits. -/
theorem toInt_range (word : BitVec 32) : -2 ^ 31 ≤ word.toInt ∧ word.toInt < 2 ^ 31 :=
  ⟨BitVec.le_toInt word, BitVec.toInt_lt⟩

section OnBits

variable (apply : BitVec 32 → BitVec 32 → BitVec 32) (left right : Float)

/-- The answer of an operation on words loses nothing when it is read as a word again. -/
theorem toInt32_onBits :
    toInt32 (onBits apply left right) = (apply (bits left) (bits right)).toInt :=
  toInt32_nearest (toInt_range _).1 (toInt_range _).2

/-- The result of an operation on bits has just these bits. -/
theorem bits_onBits : bits (onBits apply left right) = apply (bits left) (bits right) := by
  rw [bits, toInt32_onBits, BitVec.ofInt_toInt]

/-- The result of an operation on bits is an integer of 32 bits. -/
theorem rational?_onBits :
    rational? (onBits apply left right) = some (toInt32 (onBits apply left right) : ℚ) := by
  have hrange := toInt_range (apply (bits left) (bits right))
  have hsize : (apply (bits left) (bits right)).toInt.natAbs < 2 ^ 53 := by omega
  rw [toInt32_onBits]
  exact rational?_nearest hsize

end OnBits

/-- The meet of two numbers is the number of their common bits. -/
theorem meet_eq (left right : Float) : meet left right = nearest (bits left &&& bits right).toInt :=
  rfl

/-- The join of two numbers is the number of the bits of both. -/
theorem join_eq (left right : Float) : join left right = nearest (bits left ||| bits right).toInt :=
  rfl

/-- The word of a meet has the bits that both words have. -/
theorem bits_meet (left right : Float) : bits (meet left right) = bits left &&& bits right :=
  bits_onBits _ left right

/-- The word of a join has the bits that either word has. -/
theorem bits_join (left right : Float) : bits (join left right) = bits left ||| bits right :=
  bits_onBits _ left right

/-- What is shared with another word adds nothing to a word. -/
theorem or_and_self (word other : BitVec 32) : word ||| (word &&& other) = word := by
  ext place
  simp only [BitVec.getElem_or, BitVec.getElem_and]
  cases word[place] <;> rfl

/-- **Bitwise operators are operations on 32 bits.** Numbers are cut toward zero and held within the
bounds; the operators yield integers of 32 bits, which are cut to the conjunction and disjunction of
the bits. So both commute and associate, conjunction distributes over disjunction, and what a number
shares with another adds nothing to its own integer. -/
theorem bitwise_laws (x y z : Float) :
    (toInt32 x = saturated x ∧
      Operator.bitAnd.binary (.number x) (.number y) = .ok (.number (meet x y)) ∧
      Operator.bitOr.binary (.number x) (.number y) = .ok (.number (join x y))) ∧
    (rational? (meet x y) = some (toInt32 (meet x y) : ℚ) ∧
      rational? (join x y) = some (toInt32 (join x y) : ℚ) ∧
      (-2 ^ 31 ≤ toInt32 (meet x y) ∧ toInt32 (meet x y) ≤ 2 ^ 31 - 1) ∧
      (-2 ^ 31 ≤ toInt32 (join x y) ∧ toInt32 (join x y) ≤ 2 ^ 31 - 1)) ∧
    (toInt32 (meet x y) = (BitVec.ofInt 32 (toInt32 x) &&& BitVec.ofInt 32 (toInt32 y)).toInt ∧
      toInt32 (join x y) = (BitVec.ofInt 32 (toInt32 x) ||| BitVec.ofInt 32 (toInt32 y)).toInt) ∧
    (meet x y = meet y x ∧ join x y = join y x) ∧
    (meet (meet x y) z = meet x (meet y z) ∧ join (join x y) z = join x (join y z)) ∧
    meet x (join y z) = join (meet x y) (meet x z) ∧
    join x (meet x y) = join x x ∧
    join x x = nearest (toInt32 x) ∧ rational? (join x x) = some (toInt32 x : ℚ) := by
  have hmeet := toInt32_bounds (meet x y)
  have hjoin := toInt32_bounds (join x y)
  have hself : join x x = nearest (toInt32 x) := by
    rw [join_eq, BitVec.or_self, toInt_bits]
  have hsize : (toInt32 x).natAbs < 2 ^ 53 := by
    have hrange := toInt_range (bits x)
    rw [toInt_bits] at hrange
    omega
  refine ⟨⟨toInt32_eq_saturated x, rfl, rfl⟩,
    ⟨rational?_onBits _ x y, rational?_onBits _ x y, hmeet, hjoin⟩,
    ⟨toInt32_onBits _ x y, toInt32_onBits _ x y⟩, ⟨?_, ?_⟩, ⟨?_, ?_⟩, ?_, ?_, hself, ?_⟩
  -- each law holds of the bits, and the bits of a result are those that were computed
  · rw [meet_eq, meet_eq, BitVec.and_comm]
  · rw [join_eq, join_eq, BitVec.or_comm]
  · rw [meet_eq (meet x y) z, meet_eq x (meet y z), bits_meet, bits_meet, BitVec.and_assoc]
  · rw [join_eq (join x y) z, join_eq x (join y z), bits_join, bits_join, BitVec.or_assoc]
  · rw [meet_eq x (join y z), join_eq (meet x y), bits_join, bits_meet, bits_meet,
      BitVec.and_or_distrib_left]
  · rw [join_eq x (meet x y), join_eq, bits_meet, BitVec.or_self, or_and_self]
  · rw [hself]
    exact rational?_nearest hsize

end Operator

end Scriptlet
