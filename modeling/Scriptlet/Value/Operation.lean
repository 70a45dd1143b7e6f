import Scriptlet.Fault
import Scriptlet.Value.Order

/-! # Operations on values

What each operator makes of its operands. An operation that makes a string reports only its
content: who keeps the values gives it a handle of its own. -/

namespace Scriptlet

/-- What an operation yields. -/
inductive Yield where
  /-- A number. -/
  | number (value : Float)
  /-- A boolean. -/
  | boolean (value : Bool)
  /-- The content of a new string. -/
  | newString (content : String)
  deriving Repr, DecidableEq

namespace Yield

/-- The value that an operation yields, when a new string gets the given handle. -/
def toValue (handle : Nat) : Yield → Value
  | .number value => .number value
  | .boolean value => .boolean value
  | .newString content => .string ⟨content, handle⟩

end Yield

namespace Operator

/-- The kind that a binary operator demands of its operands, if it demands one. Joining of strings
apart, addition demands numbers. -/
def demand? : Operator → Option Kind
  | .plus | .minus | .times | .divide | .modulo | .bitAnd | .bitOr => some .number
  | .logicalAnd | .logicalOr => some .boolean
  | .same => some .string
  | _ => none

/-- The complaint that the operands are not of the demanded kind. -/
def complain (op : Operator) (wanted : Kind) (operands : List Value) : Except Cause Yield :=
  .error (.operands op wanted (operands.map (·.kind.name)))

/-- Applies a function to two numbers. -/
def onNumbers (op : Operator) (apply : Float → Float → Float) :
    Value → Value → Except Cause Yield
  | .number left, .number right => .ok (.number (apply left right))
  | left, right => op.complain .number [left, right]

/-- Applies a function to two booleans. -/
def onBooleans (op : Operator) (apply : Bool → Bool → Bool) :
    Value → Value → Except Cause Yield
  | .boolean left, .boolean right => .ok (.boolean (apply left right))
  | left, right => op.complain .boolean [left, right]

/-- Applies a function to the integers of 32 bits that two numbers are held within. -/
def onBits (apply : BitVec 32 → BitVec 32 → BitVec 32) (left right : Float) : Float :=
  let bits (number : Float) := BitVec.ofInt 32 (Decimal.toInt32 number)
  Decimal.nearest (apply (bits left) (bits right)).toInt

/-- Adds numbers and joins strings. -/
def add : Value → Value → Except Cause Yield
  | .string left, .string right => .ok (.newString (left.content ++ right.content))
  | left, right => onNumbers .plus (· + ·) left right

/-- Whether two strings are one and the same. -/
def identical : Value → Value → Except Cause Yield
  | .string left, .string right => .ok (.boolean (left.handle == right.handle))
  | left, right => complain .same .string [left, right]

/-- What an operator makes of the operands on its two sides. -/
def binary (op : Operator) (left right : Value) : Except Cause Yield :=
  match op with
  | .plus => add left right
  | .minus => onNumbers op (· - ·) left right
  | .times => onNumbers op (· * ·) left right
  | .divide => onNumbers op (· / ·) left right
  | .modulo => onNumbers op Decimal.remainder left right
  | .bitAnd => onNumbers op (onBits (· &&& ·)) left right
  | .bitOr => onNumbers op (onBits (· ||| ·)) left right
  | .equal => .ok (.boolean (left.equal right))
  | .differ => .ok (.boolean (!left.equal right))
  | .same => identical left right
  | .greater => .ok (.boolean (left.greater right))
  | .greaterEqual => .ok (.boolean (left.greaterEqual right))
  | .less => .ok (.boolean (left.less right))
  | .lessEqual => .ok (.boolean (left.lessEqual right))
  | .logicalAnd => onBooleans op (· && ·) left right
  | .logicalOr => onBooleans op (· || ·) left right
  -- these have no entry for two operands
  | .logicalNot | .assign | .addAssign | .subAssign | .mulAssign | .divAssign | .modAssign =>
    .error (.notBinary op)

/-- What an operator makes of the operand behind it. -/
def unary (op : Operator) (operand : Value) : Except Cause Yield :=
  match op, operand with
  | .plus, .number value => .ok (.number value)
  | .minus, .number value => .ok (.number (-value))
  | .logicalNot, .number value => .ok (.boolean (value == 0.0))
  | .plus, _ | .minus, _ | .logicalNot, _ => op.complain .number [operand]
  | _, _ => .error (.notUnary op)

end Operator

namespace Value

/-- The status with which a program ends on a value. -/
def exitStatus : Value → Except Cause Int
  | .boolean value => .ok (if value then 1 else 0)
  | .number value => .ok (Decimal.toInt32 value)
  | .string _ => .error (.status Kind.string.name)

end Value

/-- An operand given from outside: a value, or something of a type that the language lacks. -/
inductive Operand where
  /-- A value of the language. -/
  | native (value : Value)
  /-- Something else, known by the name of its type. -/
  | alien (typeName : String)
  deriving Repr, DecidableEq

namespace Operand

/-- The name of the kind of an operand. -/
def kindName : Operand → String
  | .native value => value.kind.name
  | .alien typeName => typeName

/-- What an operator between two operands complains of if one of them is no value of the language.
Operators that demand nothing, such as comparisons, do not complain; what comes of them depends on
more than the names of types. -/
def complaint? (op : Operator) (left right : Operand) : Option Cause :=
  op.demand?.map fun wanted => .operands op wanted [left.kindName, right.kindName]

/-- What an operator makes of the operand behind it. -/
def unary (op : Operator) (operand : Operand) : Except Cause Yield :=
  match operand with
  | .native value => op.unary value
  | .alien typeName =>
    if op.isUnary then .error (.operands op .number [typeName]) else .error (.notUnary op)

/-- The status with which a program would end on an operand. -/
def exitStatus : Operand → Except Cause Int
  | .native value => value.exitStatus
  | .alien typeName => .error (.status typeName)

end Operand

end Scriptlet
