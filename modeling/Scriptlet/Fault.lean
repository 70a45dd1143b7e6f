import Scriptlet.Stmt

/-! # Faults

What can go wrong while a program runs: why, at which node of the tree, and where in the text. The
wording of every cause is in `Cause.message`. -/

namespace Scriptlet

/-- Why a program cannot go on. -/
inductive Cause where
  /-- An operator was given operands of kinds it does not take. -/
  | operands (op : Operator) (wanted : Kind) (found : List String)
  /-- An operator stands in front of an operand without a meaning there. -/
  | notUnary (op : Operator)
  /-- An operator stands between operands without a meaning there. -/
  | notBinary (op : Operator)
  /-- The condition of a conditional statement is not a boolean. -/
  | condition (found : Kind)
  /-- A program was to end with a value that is no status. -/
  | status (found : String)
  /-- The left side of an assignment is not a name. -/
  | target (op : Operator)
  /-- An operator stands behind an operand. -/
  | trailing (op : Operator)
  /-- A node that is no expression was to be evaluated. -/
  | evaluation (form : String)
  /-- A node that is no statement was to be executed. -/
  | execution (form : String)
  deriving Repr, DecidableEq

/-- The three families that causes are reported in. -/
inductive Family where
  /-- Operands or values of the wrong kind. -/
  | kinds
  /-- An assignment to something that is not a name. -/
  | assignment
  /-- A form without a meaning. -/
  | unsupported
  deriving Repr, DecidableEq

namespace Cause

/-- The family of a cause. -/
def family : Cause → Family
  | .operands .. | .notUnary _ | .notBinary _ | .condition _ | .status _ => .kinds
  | .target _ => .assignment
  | .trailing _ | .evaluation _ | .execution _ => .unsupported

/-- What operands an operator wants, in words: one operand or more of a kind. -/
def wantedText (wanted : Kind) (found : List String) : String :=
  if found.length = 1 then "a " ++ wanted.name else wanted.name ++ " operands"

/-- What a cause says. -/
def message : Cause → String
  | .operands op wanted found =>
    "`" ++ op.spelling ++ "` expects " ++ wantedText wanted found ++ ", got "
      ++ Text.join " and " found ++ "."
  | .notUnary op => "`" ++ op.spelling ++ "` is not a prefix operator."
  | .notBinary op => "`" ++ op.spelling ++ "` is not a binary operator."
  | .condition found => "`if` condition must be a boolean, got " ++ found.name ++ "."
  | .status found => "`return` expects a number or boolean, got " ++ found ++ "."
  | .target op =>
    "Invalid left-hand side for `" ++ op.spelling ++ "`, expected an identifier."
  | .trailing op => "Postfix operator `" ++ op.spelling ++ "` is not supported."
  | .evaluation form => "Expression `" ++ form ++ "` cannot be evaluated."
  | .execution form => "Statement `" ++ form ++ "` cannot be executed."

/-- The operator or reserved word that a cause is about. -/
def token? : Cause → Option String
  | .operands op _ _ | .notUnary op | .notBinary op | .target op | .trailing op =>
    some op.spelling
  | .condition _ => some "if"
  | .status _ => some "return"
  | .evaluation _ | .execution _ => none

end Cause

/-- How a primitive of arithmetic or comparison gives no answer. -/
inductive Breakdown where
  /-- A quotient by zero. -/
  | zeroDivisor
  /-- A remainder of an infinity or by zero. -/
  | domain
  /-- The whole part of what is not a number. -/
  | notANumber
  /-- The whole part of an infinity. -/
  | infinite
  /-- The place of a kind that is not listed. -/
  | unlisted (kind : Kind)
  deriving Repr, DecidableEq

/-- A node of a program's tree. -/
inductive Node where
  /-- An expression. -/
  | expression (expr : Expr)
  /-- A statement. -/
  | statement (stmt : Stmt)
  deriving Repr

namespace Node

/-- The text of a node, if it has no gaps. -/
def render? : Node → Option String
  | .expression expr => expr.render?
  | .statement stmt => stmt.render?

/-- The position that a node carries. -/
def place? : Node → Option Position
  | .expression expr => expr.place?
  | .statement stmt => stmt.place?

end Node

/-- A cause with the node that failed and its position, as far as they are known. -/
structure Fault where
  /-- Why the program cannot go on. -/
  cause : Cause
  /-- The node that failed. -/
  node : Option Node := none
  /-- Where it failed. -/
  place : Option Position := none
  deriving Repr

namespace Fault

/-- Fixes the failing node, unless a node inside it was fixed before. -/
def locate (node : Node) (fault : Fault) : Fault :=
  if fault.node.isSome then fault
  else { fault with node := some node, place := node.place? }

/-- Fixes the position by the statement, unless it is known more closely. -/
def settle (stmt : Stmt) (fault : Fault) : Fault :=
  { fault with place := fault.place.or stmt.place? }

end Fault

/-- Why a run stops before its last statement is done. -/
inductive Halt where
  /-- A fault of the program. -/
  | failed (fault : Fault)
  /-- The program ended itself with a status, computed from a value. -/
  | ended (status : Int) (value : Value)
  /-- A primitive gave no answer. -/
  | broken (breakdown : Breakdown)
  /-- A tree is nested too deeply. -/
  | tooDeep
  /-- A tree with gaps was to be written as text. -/
  | gap
  /-- A gap was to be evaluated, executed or assigned to. -/
  | absent
  deriving Repr

namespace Halt

/-- Fixes the failing node of a fault. -/
def locate (node : Node) : Halt → Halt
  | .failed fault => .failed (fault.locate node)
  | halt => halt

/-- Fixes the position of a fault by the statement. -/
def settle (stmt : Stmt) : Halt → Halt
  | .failed fault => .failed (fault.settle stmt)
  | halt => halt

end Halt

end Scriptlet
