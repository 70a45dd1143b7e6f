import Scriptlet.Decimal.Notation

/-! # Values

A program computes with numbers, booleans and strings. A string value has an identity apart from
its content: it is made once, by a literal, by joining, by asking for the name of a kind or by a
binding from outside, and then shared by every name that holds it. -/

namespace Scriptlet

/-- A string value: its content and the handle that tells it from all other string values. -/
structure StringValue where
  /-- The characters. -/
  content : String
  /-- The identity. -/
  handle : Nat
  deriving Repr, DecidableEq

/-- A value of a program. -/
inductive Value where
  /-- A number. -/
  | number (value : Float)
  /-- A boolean. -/
  | boolean (value : Bool)
  /-- A string. -/
  | string (value : StringValue)
  deriving Repr, DecidableEq

/-- The kind of a value. -/
inductive Kind where
  /-- Numbers. -/
  | number
  /-- Booleans. -/
  | boolean
  /-- Strings. -/
  | string
  deriving Repr, DecidableEq

namespace Kind

/-- The name of a kind. -/
def name : Kind → String
  | .number => "number"
  | .boolean => "boolean"
  | .string => "string"

/-- The place of a kind in the order between values of different kinds. -/
def rank : Kind → Nat
  | .number => 0
  | .boolean => 1
  | .string => 2

end Kind

namespace Value

/-- The kind of a value. -/
def kind : Value → Kind
  | .number _ => .number
  | .boolean _ => .boolean
  | .string _ => .string

/-- How a value is printed. -/
def printed : Value → String
  | .number value => Decimal.printed value
  | .boolean value => if value then "true" else "false"
  | .string value => value.content

/-- How a value is shown in traces and answers: as printed, but with strings in quotes. -/
def shown : Value → String
  | .string value => "\"" ++ value.content ++ "\""
  | value => value.printed

end Value

end Scriptlet
