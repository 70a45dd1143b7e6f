import Scriptlet.Value

/-! # Order of values

Values of one kind are compared by content: numbers as numbers, false before true, strings by code
points. Values of different kinds are ordered by kind: numbers, then booleans, then strings. Two
numbers of which one is not a number are not ordered at all. -/

namespace Scriptlet.Value

/-- The order of two numbers, if they are ordered. -/
def compareNumbers? (left right : Float) : Option Ordering :=
  if left < right then some .lt
  else if left == right then some .eq
  else if right < left then some .gt
  else none

/-- The order of two values, if they are ordered. -/
def compare? : Value → Value → Option Ordering
  | .number left, .number right => compareNumbers? left right
  | .boolean left, .boolean right => some (compare left.toNat right.toNat)
  | .string left, .string right => some (compareOfLessAndEq left.content right.content)
  | left, right => some (compare left.kind.rank right.kind.rank)

/-- Whether two values have the same kind and content. -/
def equal : Value → Value → Bool
  | .number left, .number right => left == right
  | .boolean left, .boolean right => left == right
  | .string left, .string right => left.content == right.content
  | _, _ => false

/-- Whether the left value comes before the right one. -/
def less (left right : Value) : Bool :=
  compare? left right == some .lt

/-- Whether the left value comes before the right one or beside it. -/
def lessEqual (left right : Value) : Bool :=
  (compare? left right).any Ordering.isLE

/-- Whether the left value comes after the right one. -/
def greater (left right : Value) : Bool :=
  compare? left right == some .gt

/-- Whether the left value comes after the right one or beside it. -/
def greaterEqual (left right : Value) : Bool :=
  (compare? left right).any Ordering.isGE

end Scriptlet.Value
