import Scriptlet.Proofs.Recognition
import Scriptlet.Proofs.Scanning
import Scriptlet.Program

/-! # Trees that texts spell

A tree that was read from a text is narrower than trees in general: no operator trails its operand,
no operator stands where it has no meaning, and nothing is missing or misplaced. Moreover the
handles of its string literals are those set aside when the text was read. -/

namespace Scriptlet

/-- An expression can be spelled by a text whose string literals have handles of a given sort. -/
def Expr.IsSpelled (literal : Nat → Prop) : Expr → Prop
  | .name .. | .number .. => True
  | .string value _ => literal value.handle
  | .unary op operand _ => op.isUnary = true ∧ operand.IsSpelled literal
  | .typeOf operand _ => operand.IsSpelled literal
  | .binary left op right _ =>
    op.isBinary = true ∧ left.IsSpelled literal ∧ right.IsSpelled literal
  | .trailing .. | .misplaced .. | .absent => False

namespace Stmt

mutual

/-- A statement can be spelled by a text whose string literals have handles of a given sort. -/
def IsSpelled (literal : Nat → Prop) : Stmt → Prop
  | .expression expr _ | .print expr _ | .ret expr _ => expr.IsSpelled literal
  | .block body _ => AreSpelled literal body
  | .cond condition body _ => condition.IsSpelled literal ∧ body.IsSpelled literal
  | .condElse condition body other _ =>
    condition.IsSpelled literal ∧ body.IsSpelled literal ∧ other.IsSpelled literal
  | .misplaced _ => False

/-- Statements in a row can be spelled by a text. -/
def AreSpelled (literal : Nat → Prop) : List Stmt → Prop
  | [] => True
  | first :: rest => first.IsSpelled literal ∧ AreSpelled literal rest

end

end Stmt

variable {literal : Nat → Prop}

/-! ## What can be spelled has no gaps -/

/-- An expression that a text can spell has nothing missing. -/
theorem Expr.IsSpelled.isComplete {expr : Expr} (h : expr.IsSpelled literal) :
    expr.isComplete = true := by
  induction expr with
  | name => rfl
  | number => rfl
  | string => rfl
  | unary op operand place ih => exact ih h.2
  | binary left op right place ihleft ihright =>
    obtain ⟨-, hleft, hright⟩ := h
    rw [Expr.isComplete, ihleft hleft, ihright hright]
    rfl
  | typeOf operand place ih => exact ih h
  | trailing => exact h.elim
  | misplaced => exact h.elim
  | absent => exact h.elim

namespace Stmt

mutual

/-- A statement that a text can spell has nothing missing. -/
theorem isComplete_of_isSpelled : ∀ (stmt : Stmt), stmt.IsSpelled literal → stmt.isComplete = true
  | .expression _ _, h => Expr.IsSpelled.isComplete h
  | .print _ _, h => Expr.IsSpelled.isComplete h
  | .ret _ _, h => Expr.IsSpelled.isComplete h
  | .block body _, h => areComplete_of_areSpelled body h
  | .cond _ body _, ⟨hcondition, hbody⟩ => by
    rw [isComplete, hcondition.isComplete, isComplete_of_isSpelled body hbody]
    rfl
  | .condElse _ body other _, ⟨hcondition, hbody, hother⟩ => by
    rw [isComplete, hcondition.isComplete, isComplete_of_isSpelled body hbody,
      isComplete_of_isSpelled other hother]
    rfl
  | .misplaced _, h => h.elim

/-- Statements that a text can spell have nothing missing. -/
theorem areComplete_of_areSpelled :
    ∀ (row : List Stmt), AreSpelled literal row → areComplete row = true
  | [], _ => rfl
  | first :: rest, ⟨hfirst, hrest⟩ => by
    rw [areComplete, isComplete_of_isSpelled first hfirst, areComplete_of_areSpelled rest hrest]
    rfl

end

/-- What can be spelled has a text. -/
theorem render?_of_isSpelled {stmt : Stmt} (h : stmt.IsSpelled literal) :
    stmt.render? = some stmt.render := by
  rw [render?, isComplete_of_isSpelled stmt h]
  rfl

end Stmt

/-! ## What is derived can be spelled -/

namespace Program

/-- String literals in the places of some lexemes would have handles of a given sort. -/
def Origin.Covers (origin : Origin) (literal : Nat → Prop) (lexemes : List Lexeme) : Prop :=
  ∀ lexeme ∈ lexemes, literal (origin.firstHandle + lexeme.start.offset)

variable {origin : Origin}

section Covers

variable {first : Lexeme} {before behind : List Lexeme}

/-- The lexemes behind the first are covered. -/
theorem Origin.Covers.tail (h : origin.Covers literal (first :: behind)) :
    origin.Covers literal behind :=
  fun lexeme hmem => h lexeme (List.mem_cons_of_mem _ hmem)

/-- The lexemes of a front are covered. -/
theorem Origin.Covers.left (h : origin.Covers literal (before ++ behind)) :
    origin.Covers literal before :=
  fun lexeme hmem => h lexeme (List.mem_append_left _ hmem)

/-- The lexemes behind a front are covered. -/
theorem Origin.Covers.right (h : origin.Covers literal (before ++ behind)) :
    origin.Covers literal behind :=
  fun lexeme hmem => h lexeme (List.mem_append_right _ hmem)

end Covers

/-- What is derived as an expression can be spelled. -/
theorem ExprDerivation.isSpelled {rank : Nat} {lexemes : List Lexeme} {expr : Expr}
    (h : ExprDerivation origin rank lexemes expr) (hcovers : origin.Covers literal lexemes) :
    expr.IsSpelled literal := by
  induction h with
  | name => trivial
  | number => trivial
  | text => exact hcovers _ (List.mem_singleton.2 rfl)
  | group _ _ _ ih => exact ih hcovers.tail.left
  | unary _ hunary _ ih => exact ⟨hunary, ih hcovers.tail⟩
  | typeOf _ _ ih => exact ih hcovers.tail
  | tighter _ _ _ ih => exact ih hcovers
  | binary _ _ _ hbinary _ _ _ ihleft ihright =>
    exact ⟨hbinary, ihleft hcovers.left, ihright hcovers.right.tail⟩
  | assignment _ hassignment _ _ ihleft ihright =>
    -- every assignment operator is a binary one
    have hbinary := Operator.isBinary_of_isAssignment hassignment
    exact ⟨hbinary, ihleft hcovers.left, ihright hcovers.right.tail⟩

mutual

/-- A statement that is derived from lexemes is spelled by them. -/
theorem StmtDerivation.isSpelled {lexemes : List Lexeme} {next : Option Token} {stmt : Stmt} :
    StmtDerivation origin lexemes next stmt → origin.Covers literal lexemes →
    stmt.IsSpelled literal
  | .print _ hexpr _, hcovers => hexpr.isSpelled hcovers.tail
  | .ret _ hexpr _, hcovers => hexpr.isSpelled hcovers.tail
  | .cond _ htest hbody, hcovers =>
    ⟨htest.isSpelled hcovers.tail.left, hbody.isSpelled hcovers.tail.right⟩
  | .condElse _ htest hbody _ hother, hcovers =>
    ⟨htest.isSpelled hcovers.tail.left, hbody.isSpelled hcovers.tail.right.left,
      hother.isSpelled hcovers.tail.right.right.tail⟩
  | .expression hexpr _, hcovers => hexpr.isSpelled hcovers

/-- A block that is derived from lexemes is spelled by them. -/
theorem BlockDerivation.isSpelled {lexemes : List Lexeme} {stmt : Stmt} :
    BlockDerivation origin lexemes stmt → origin.Covers literal lexemes → stmt.IsSpelled literal
  | .block _ hinside _, hcovers => hinside.areSpelled hcovers.tail.left

/-- What is derived as a row of statements can be spelled. -/
theorem RowDerivation.areSpelled {lexemes : List Lexeme} {next : Option Token} {row : List Stmt} :
    RowDerivation origin lexemes next row → origin.Covers literal lexemes →
    Stmt.AreSpelled literal row
  | .nil, _ => trivial
  | .newline _ hrow, hcovers => hrow.areSpelled hcovers.tail
  | .cons hfirst hothers, hcovers =>
    ⟨hfirst.isSpelled hcovers.left, hothers.areSpelled hcovers.right⟩

end

/-- Reading a text comes down to reading its lexemes. -/
theorem ofSource_eq_ok_iff {limit : Nat} {filename : Option String} {firstHandle : Nat}
    {source : String} {program : List Stmt} :
    ofSource limit filename firstHandle source = .ok program ↔
      ofLexemes ⟨filename, firstHandle⟩ limit (Token.lexemes source) = .ok program := by
  unfold ofSource Token.lexemes
  dsimp only
  split <;> simp_all

/-- A program that was read from a text can be spelled, with literals whose handles were set aside
for the text. -/
theorem areSpelled_of_ofSource {limit : Nat} {filename : Option String} {firstHandle : Nat}
    {source : String} {program : List Stmt}
    (h : ofSource limit filename firstHandle source = .ok program)
    (hliteral : ∀ handle, firstHandle ≤ handle → handle < firstHandle + source.length →
      literal handle) : Stmt.AreSpelled literal program := by
  have hderivation := derivation_of_ofLexemes _ (ofSource_eq_ok_iff.1 h)
  -- a handle is set aside for every character, and every lexeme begins at one of them
  have hcovers : Origin.Covers ⟨filename, firstHandle⟩ literal (Token.lexemes source) := by
    intro lexeme hmem
    have hstart := Token.start_lt_of_mem_lexemes hmem
    exact hliteral _ (Nat.le_add_right _ _) (Nat.add_lt_add_left hstart _)
  exact RowDerivation.areSpelled hderivation hcovers

end Program

end Scriptlet
