import Scriptlet.Value.Operation

/-! # Guarded primitives

The primitives of arithmetic and comparison are partial: there is no quotient by zero, no remainder
of an infinity, no whole part of what is not a number, and no place for a kind that is not listed.
The operators ask for them behind guards, which have answers of their own for such operands. Whether
the guards suffice is not built into the types: an operation may break down. -/

namespace Scriptlet

/-! ## Primitives -/

namespace Primitive

/-- The quotient of two numbers; there is none by zero. -/
def quotient (dividend divisor : Float) : Except Breakdown Float :=
  if divisor == 0 then .error .zeroDivisor else .ok (dividend / divisor)

/-- The remainder of two numbers; there is none of an infinity and none by zero, unless the other
one is not a number. -/
def remainder (dividend divisor : Float) : Except Breakdown Float :=
  if dividend.isNaN || divisor.isNaN then .ok Decimal.notANumber
  else if dividend.isInf || divisor == 0 then .error .domain
  else .ok (Decimal.remainder dividend divisor)

/-- The whole part of a number, however large it is, if the number is finite. -/
def truncate (number : Float) : Except Breakdown Int :=
  match number.toModel.unpack with
  | .notANumber => .error .notANumber
  | .infinity _ => .error .infinite
  | .zero _ => .ok 0
  | .finite sign mantissa exponent _ => .ok (sign.apply (Decimal.wholePart mantissa exponent))

/-- The kinds in the order between values of different kinds, each with its place. -/
def places : List (Kind × Nat) :=
  [(.number, 0), (.boolean, 1), (.string, 2)]

/-- The place of a kind, if it is listed. -/
def place (kind : Kind) : Except Breakdown Nat :=
  match places.lookup kind with
  | some place => .ok place
  | none => .error (.unlisted kind)

end Primitive

/-! ## Guards -/

namespace Decimal

/-- Whether a number has the negative sign, which a zero may have too. -/
def isNegative (number : Float) : Bool :=
  match number.toModel.unpack with
  | .infinity .negative | .zero .negative | .finite .negative .. => true
  | _ => false

/-- The size of one number under the sign of another. -/
def copySign (size signed : Float) : Float :=
  if isNegative signed then -size.abs else size.abs

/-- The quotient of any two numbers. By zero it is infinite under the signs of both, unless the
dividend is zero as well or not a number. -/
def guardedQuotient (dividend divisor : Float) : Except Breakdown Float :=
  if divisor != 0 then Primitive.quotient dividend divisor
  else if dividend == 0 || dividend.isNaN then .ok notANumber
  else .ok (copySign infinity dividend * copySign 1 divisor)

/-- The remainder of any two numbers, which need not be a number. -/
def guardedRemainder (dividend divisor : Float) : Except Breakdown Float :=
  if divisor == 0 || dividend.isInf || divisor.isNaN || dividend.isNaN then .ok notANumber
  else Primitive.remainder dividend divisor

/-- A number cut toward zero and held within 32 bits; what is not a number becomes zero. -/
def guardedInt32 (number : Float) : Except Breakdown Int :=
  if number.isNaN then .ok 0
  else if nearest int32Max ≤ number then .ok int32Max
  else if number ≤ nearest int32Min then .ok int32Min
  else Primitive.truncate number

/-- What a function makes of the integers of 32 bits that two numbers are held within. -/
def guardedBits (apply : BitVec 32 → BitVec 32 → BitVec 32) (left right : Float) :
    Except Breakdown Float := do
  let left ← guardedInt32 left
  let right ← guardedInt32 right
  return nearest (apply (BitVec.ofInt 32 left) (BitVec.ofInt 32 right)).toInt

end Decimal

namespace Value

/-- The order of two values, if they are ordered: by their contents if they are of one kind, by the
places of their kinds if not. -/
def guardedCompare (left right : Value) : Except Breakdown (Option Ordering) :=
  if left.kind = right.kind then .ok (left.compare? right)
  else do return some (compare (← Primitive.place left.kind) (← Primitive.place right.kind))

/-- The status with which a program ends on a value. -/
def guardedStatus : Value → Except Breakdown (Except Cause Int)
  | .number value => do return .ok (← Decimal.guardedInt32 value)
  | value => .ok value.exitStatus

end Value

namespace Operator

/-- What an operator makes of the operands on its two sides, or complains of, if no primitive breaks
down. -/
def guarded (op : Operator) (left right : Value) : Except Breakdown (Except Cause Yield) :=
  match op, left, right with
  | .divide, .number left, .number right => do
    return .ok (.number (← Decimal.guardedQuotient left right))
  | .modulo, .number left, .number right => do
    return .ok (.number (← Decimal.guardedRemainder left right))
  | .bitAnd, .number left, .number right => do
    return .ok (.number (← Decimal.guardedBits (· &&& ·) left right))
  | .bitOr, .number left, .number right => do
    return .ok (.number (← Decimal.guardedBits (· ||| ·) left right))
  | .greater, left, right => do
    return .ok (.boolean ((← left.guardedCompare right) == some .gt))
  | .greaterEqual, left, right => do
    return .ok (.boolean ((← left.guardedCompare right).any Ordering.isGE))
  | .less, left, right => do
    return .ok (.boolean ((← left.guardedCompare right) == some .lt))
  | .lessEqual, left, right => do
    return .ok (.boolean ((← left.guardedCompare right).any Ordering.isLE))
  -- the others rest on no primitive, and complain of operands of other kinds
  | op, left, right => .ok (op.binary left right)

end Operator

end Scriptlet
