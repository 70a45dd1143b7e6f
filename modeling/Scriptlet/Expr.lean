import Scriptlet.Operator
import Scriptlet.Position
import Scriptlet.Value

/-! # Expressions

The tree of an expression. Every node may carry the position it was read from. Trees handed in from
outside may be wider than what a text can spell: operators where they have no meaning, trailing
operators, a statement where an expression belongs, and gaps. -/

namespace Scriptlet

/-- An expression. -/
inductive Expr where
  /-- A name. -/
  | name (spelling : String) (place : Option Position)
  /-- A number. -/
  | number (value : Float) (place : Option Position)
  /-- A string; the tree holds the value itself, so every evaluation yields the same one. -/
  | string (value : StringValue) (place : Option Position)
  /-- An operator in front of its operand. -/
  | unary (op : Operator) (operand : Expr) (place : Option Position)
  /-- An operator between its operands. -/
  | binary (left : Expr) (op : Operator) (right : Expr) (place : Option Position)
  /-- An operator behind its operand, which no text can spell. -/
  | trailing (operand : Expr) (op : Operator) (place : Option Position)
  /-- The name of the kind of an operand. -/
  | typeOf (operand : Expr) (place : Option Position)
  /-- A statement in the place of an expression, known by the name of its form and, unless it has
  gaps, its text. -/
  | misplaced (form : String) (rendering : Option String) (place : Option Position)
  /-- Nothing in the place of an expression, or of a part of one. -/
  | absent
  deriving Repr, DecidableEq

namespace Expr

/-- The position that a node carries. -/
def place? : Expr → Option Position
  | .name _ place | .number _ place | .string _ place | .unary _ _ place | .binary _ _ _ place
  | .trailing _ _ place | .typeOf _ place | .misplaced _ _ place => place
  | .absent => none

/-- Whether there is nothing where an expression belongs. -/
def isAbsent : Expr → Bool
  | .absent => true
  | _ => false

/-- The name of the form of a node, as messages give it. -/
def form : Expr → String
  | .name .. => "Identifier"
  | .number .. => "Number"
  | .string .. => "String"
  | .unary .. => "PrefixExpr"
  | .binary .. => "InfixExpr"
  | .trailing .. => "PostfixExpr"
  | .typeOf .. => "TypeofExpr"
  | .misplaced form .. => form
  | .absent => "NoneType"

/-- The text of an expression, with parentheses around everything that has parts. -/
def render : Expr → String
  | .name spelling _ => spelling
  | .number value _ => Decimal.printed value
  | .string value _ => "\"" ++ value.content ++ "\""
  | .unary op operand _ => "(" ++ op.spelling ++ operand.render ++ ")"
  | .binary left op right _ =>
    "(" ++ left.render ++ " " ++ op.spelling ++ " " ++ right.render ++ ")"
  | .trailing operand op _ => "(" ++ operand.render ++ op.spelling ++ ")"
  | .typeOf operand _ => "(typeof " ++ operand.render ++ ")"
  | .misplaced _ rendering _ => rendering.getD ""
  | .absent => ""

/-- Whether an expression has no gaps, so that it has a text. -/
def isComplete : Expr → Bool
  | .name .. | .number .. | .string .. => true
  | .unary _ operand _ | .trailing operand _ _ | .typeOf operand _ => operand.isComplete
  | .binary left _ right _ => left.isComplete && right.isComplete
  | .misplaced _ rendering _ => rendering.isSome
  | .absent => false

/-- The text of an expression, if it has no gaps. -/
def render? (expr : Expr) : Option String :=
  if expr.isComplete then some expr.render else none

/-- The number of nodes on the longest path down an expression. -/
def depth : Expr → Nat
  | .unary _ operand _ | .trailing operand _ _ | .typeOf operand _ => operand.depth + 1
  | .binary left _ right _ => max left.depth right.depth + 1
  | _ => 1

end Expr

end Scriptlet
