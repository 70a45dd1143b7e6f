import Scriptlet.Expr
import Scriptlet.Text.Field

/-! # Statements

The tree of a statement. As with expressions, trees handed in from outside may be wider than what a
text can spell: an expression where a statement belongs, any statement as the body of a
conditional, and gaps. -/

namespace Scriptlet

/-- A statement. -/
inductive Stmt where
  /-- An expression on its own, whose value may become the result of the program. -/
  | expression (expr : Expr) (place : Option Position)
  /-- Prints the value of an expression. -/
  | print (expr : Expr) (place : Option Position)
  /-- Ends the program with the value of an expression. -/
  | ret (expr : Expr) (place : Option Position)
  /-- Statements in a row. -/
  | block (body : List Stmt) (place : Option Position)
  /-- A body that is executed when a condition holds. -/
  | cond (condition : Expr) (body : Stmt) (place : Option Position)
  /-- One of two bodies, chosen by a condition. -/
  | condElse (condition : Expr) (body other : Stmt) (place : Option Position)
  /-- An expression in the place of a statement, or nothing at all. -/
  | misplaced (expr : Expr)
  deriving Repr

namespace Stmt

/-- The position that a statement carries. -/
def place? : Stmt → Option Position
  | .expression _ place | .print _ place | .ret _ place | .block _ place | .cond _ _ place
  | .condElse _ _ _ place => place
  | .misplaced expr => expr.place?

/-- The name of the form of a statement, as messages give it. -/
def form : Stmt → String
  | .expression .. => "ExprStatement"
  | .print .. => "PrintStatement"
  | .ret .. => "ReturnStatement"
  | .block .. => "Block"
  | .cond .. | .condElse .. => "IfStatement"
  | .misplaced expr => expr.form

mutual

/-- The text of a statement, on one line if its strings are. -/
def render : Stmt → String
  | .expression expr _ => expr.render
  | .print expr _ => "print " ++ expr.render
  | .ret expr _ => "return " ++ expr.render
  | .block [] _ => "\x7b \x7d"
  | .block body _ => "\x7b " ++ Text.join " ; " (renderAll body) ++ " \x7d"
  | .cond condition body _ => "if " ++ condition.render ++ " " ++ body.render
  | .condElse condition body other _ =>
    "if " ++ condition.render ++ " " ++ body.render ++ " else " ++ other.render
  | .misplaced expr => expr.render

/-- The texts of statements in a row. -/
def renderAll : List Stmt → List String
  | [] => []
  | first :: rest => first.render :: renderAll rest

end

mutual

/-- Whether a statement has no gaps, so that it has a text. -/
def isComplete : Stmt → Bool
  | .expression expr _ | .print expr _ | .ret expr _ | .misplaced expr => expr.isComplete
  | .block body _ => areComplete body
  | .cond condition body _ => condition.isComplete && body.isComplete
  | .condElse condition body other _ =>
    condition.isComplete && body.isComplete && other.isComplete

/-- Whether statements in a row have no gaps. -/
def areComplete : List Stmt → Bool
  | [] => true
  | first :: rest => first.isComplete && areComplete rest

end

mutual

/-- The number of nodes on the longest path down a statement. -/
def depth : Stmt → Nat
  | .expression expr _ | .print expr _ | .ret expr _ | .misplaced expr => expr.depth + 1
  | .block body _ => depthAll body + 1
  | .cond condition body _ => max condition.depth body.depth + 1
  | .condElse condition body other _ =>
    max condition.depth (max body.depth other.depth) + 1

/-- The greatest depth of statements in a row. -/
def depthAll : List Stmt → Nat
  | [] => 0
  | first :: rest => max first.depth (depthAll rest)

end

/-- The text of a statement, if it has no gaps. -/
def render? (stmt : Stmt) : Option String :=
  if stmt.isComplete then some stmt.render else none

/-- A statement as it stands where an expression belongs. -/
def toExpr : Stmt → Expr
  | .misplaced expr => expr
  | stmt => .misplaced stmt.form stmt.render? stmt.place?

end Stmt

end Scriptlet
