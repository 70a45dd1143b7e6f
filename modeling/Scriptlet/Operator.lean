import Scriptlet.Text.Quoted

/-! # Operators

The operators of the language, how they are spelled and how tightly they bind. Every assignment
operator other than plain assignment stands for a binary operator that is applied before the
result is stored. -/

namespace Scriptlet

/-- How tightly an operator binds, from loose to tight. -/
inductive Level where
  /-- No operator. -/
  | lowest
  /-- Plain and compound assignment. -/
  | assignment
  /-- Logical disjunction. -/
  | logicalOr
  /-- Logical conjunction. -/
  | logicalAnd
  /-- Bitwise disjunction. -/
  | bitOr
  /-- Bitwise conjunction. -/
  | bitAnd
  /-- Equality, inequality and identity. -/
  | equality
  /-- Order comparison. -/
  | comparison
  /-- Addition and subtraction. -/
  | sum
  /-- Multiplication, division and remainder. -/
  | product
  /-- Operators in front of their operand. -/
  | unary
  /-- Operators behind their operand. -/
  | trailing
  deriving Repr, DecidableEq

/-- The rank of a level; a higher rank binds more tightly. -/
def Level.rank : Level → Nat
  | .lowest => 0
  | .assignment => 1
  | .logicalOr => 2
  | .logicalAnd => 3
  | .bitOr => 4
  | .bitAnd => 5
  | .equality => 6
  | .comparison => 7
  | .sum => 8
  | .product => 9
  | .unary => 10
  | .trailing => 11

/-- An operator of the language. -/
inductive Operator where
  /-- Addition of numbers and joining of strings; in front, the number itself. -/
  | plus
  /-- Subtraction; in front, the opposite number. -/
  | minus
  /-- Multiplication. -/
  | times
  /-- Division. -/
  | divide
  /-- Remainder. -/
  | modulo
  /-- Equality of kind and content. -/
  | equal
  /-- Identity of strings. -/
  | same
  /-- Inequality of kind or content. -/
  | differ
  /-- Strictly greater. -/
  | greater
  /-- Greater or equal. -/
  | greaterEqual
  /-- Strictly less. -/
  | less
  /-- Less or equal. -/
  | lessEqual
  /-- Logical conjunction. -/
  | logicalAnd
  /-- Logical disjunction. -/
  | logicalOr
  /-- Test for zero, only in front. -/
  | logicalNot
  /-- Bitwise conjunction. -/
  | bitAnd
  /-- Bitwise disjunction. -/
  | bitOr
  /-- Assignment. -/
  | assign
  /-- Addition and assignment. -/
  | addAssign
  /-- Subtraction and assignment. -/
  | subAssign
  /-- Multiplication and assignment. -/
  | mulAssign
  /-- Division and assignment. -/
  | divAssign
  /-- Remainder and assignment. -/
  | modAssign
  deriving Repr, DecidableEq

namespace Operator

/-- All operators, longer spellings before shorter ones. -/
def all : List Operator :=
  [.same, .addAssign, .subAssign, .mulAssign, .divAssign, .modAssign, .equal, .greaterEqual,
    .lessEqual, .logicalAnd, .logicalOr, .differ, .plus, .minus, .times, .divide, .modulo,
    .assign, .greater, .less, .bitAnd, .bitOr, .logicalNot]

/-- How an operator is written. -/
def spelling : Operator → String
  | .plus => "+"
  | .minus => "-"
  | .times => "*"
  | .divide => "/"
  | .modulo => "%"
  | .equal => "=="
  | .same => "==="
  | .differ => "!="
  | .greater => ">"
  | .greaterEqual => ">="
  | .less => "<"
  | .lessEqual => "<="
  | .logicalAnd => "&&"
  | .logicalOr => "||"
  | .logicalNot => "!"
  | .bitAnd => "&"
  | .bitOr => "|"
  | .assign => "="
  | .addAssign => "+="
  | .subAssign => "-="
  | .mulAssign => "*="
  | .divAssign => "/="
  | .modAssign => "%="

/-- The operator with a given spelling. -/
def ofSpelling? (text : String) : Option Operator :=
  all.find? (·.spelling == text)

/-- What is said of a text that spells no operator. -/
def unknownMessage (text : String) : String :=
  Text.quoted text ++ " is not a valid Operator"

/-- How tightly an operator binds. -/
def level : Operator → Level
  | .assign | .addAssign | .subAssign | .mulAssign | .divAssign | .modAssign => .assignment
  | .logicalOr => .logicalOr
  | .logicalAnd => .logicalAnd
  | .bitOr => .bitOr
  | .bitAnd => .bitAnd
  | .equal | .differ | .same => .equality
  | .greater | .greaterEqual | .less | .lessEqual => .comparison
  | .plus | .minus => .sum
  | .times | .divide | .modulo => .product
  | .logicalNot => .unary

/-- The binary operator that a compound assignment applies before it stores. -/
def compound? : Operator → Option Operator
  | .addAssign => some .plus
  | .subAssign => some .minus
  | .mulAssign => some .times
  | .divAssign => some .divide
  | .modAssign => some .modulo
  | _ => none

/-- Whether an operator stores into its left operand. -/
def isAssignment (op : Operator) : Bool :=
  op == .assign || op.compound?.isSome

/-- Whether an operator may stand in front of an operand. -/
def isUnary : Operator → Bool
  | .plus | .minus | .logicalNot => true
  | _ => false

/-- Whether an operator may stand between two operands. -/
def isBinary (op : Operator) : Bool :=
  op != .logicalNot

/-- The level that the right operand of an operator has to exceed. Assignments group to the right,
all others to the left. -/
def rightLevel (op : Operator) : Level :=
  if op.isAssignment then .lowest else op.level

/-- The listing of the operators is complete. -/
theorem mem_all (op : Operator) : op ∈ all := by
  cases op <;> decide

end Operator

end Scriptlet
