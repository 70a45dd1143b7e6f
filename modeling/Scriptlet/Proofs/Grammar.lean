import Scriptlet.Program.Parse

/-! # The grammar

Which runs of lexemes derive which trees. Expressions are layered by rank: rank 1 is that of whole
expressions, which an assignment extends to the right; ranks 2 to 9 are those of the operators that
group to the left, one rank for each level; rank 10 is that of operands. A statement is derived
together with the token that follows it, since statements end without a mark of their own: what
prints or returns has to be followed by the end of its line, and an expression on its own by
anything but an operator. -/

namespace Scriptlet.Program

/-- The token at the front of a list of lexemes, if there is one. -/
def nextToken (lexemes : List Lexeme) : Option Token :=
  lexemes.head?.map Lexeme.token

/-- Behind the last lexeme there is no token. -/
@[simp] theorem nextToken_nil : nextToken [] = none := rfl

/-- The next token is that of the first lexeme. -/
@[simp] theorem nextToken_cons (lexeme : Lexeme) (rest : List Lexeme) :
    nextToken (lexeme :: rest) = some lexeme.token := rfl

/-- What stands at the front of a row is its own first token, or else that of what follows it. -/
@[simp] theorem nextToken_append (lexemes rest : List Lexeme) :
    nextToken (lexemes ++ rest) = (nextToken lexemes).or (nextToken rest) := by
  cases lexemes with
  | nil => rfl
  | cons lexeme others => rfl

/-- A run of lexemes derives an expression of a rank. Parentheses leave no node. -/
inductive ExprDerivation (origin : Origin) : Nat → List Lexeme → Expr → Prop where
  /-- A name is an operand. -/
  | name {lexeme : Lexeme} {spelling : String} (htoken : lexeme.token = .name spelling) :
      ExprDerivation origin 10 [lexeme] (.name spelling (origin.place lexeme))
  /-- A number is an operand. -/
  | number {lexeme : Lexeme} {value : Float} (htoken : lexeme.token = .number value) :
      ExprDerivation origin 10 [lexeme] (.number value (origin.place lexeme))
  /-- A string literal is an operand. -/
  | text {lexeme : Lexeme} {content : String} (htoken : lexeme.token = .text content) :
      ExprDerivation origin 10 [lexeme]
        (.string (origin.literal content lexeme) (origin.place lexeme))
  /-- An expression in parentheses is an operand. -/
  | group {opening closing : Lexeme} {inside : List Lexeme} {expr : Expr}
      (hopening : opening.token = .openParen) (hinside : ExprDerivation origin 1 inside expr)
      (hclosing : closing.token = .closeParen) :
      ExprDerivation origin 10 (opening :: (inside ++ [closing])) expr
  /-- An operator in front of an operand makes an operand. -/
  | unary {lexeme : Lexeme} {op : Operator} {inside : List Lexeme} {operand : Expr}
      (htoken : lexeme.token = .operator op) (hunary : op.isUnary = true)
      (hinside : ExprDerivation origin 10 inside operand) :
      ExprDerivation origin 10 (lexeme :: inside) (.unary op operand (origin.place lexeme))
  /-- The question for the kind of an operand makes an operand. -/
  | typeOf {lexeme : Lexeme} {inside : List Lexeme} {operand : Expr}
      (htoken : lexeme.token = .keyword .typeOf)
      (hinside : ExprDerivation origin 10 inside operand) :
      ExprDerivation origin 10 (lexeme :: inside) (.typeOf operand (origin.place lexeme))
  /-- An expression of the next rank is one of this rank. -/
  | tighter {rank : Nat} {lexemes : List Lexeme} {expr : Expr} (hlow : 1 ≤ rank) (hhigh : rank ≤ 9)
      (hexpr : ExprDerivation origin (rank + 1) lexemes expr) : ExprDerivation origin rank lexemes expr
  /-- An operator of a rank groups its operands to the left. -/
  | binary {rank : Nat} {lexeme : Lexeme} {op : Operator} {before behind : List Lexeme}
      {left right : Expr} (hlow : 2 ≤ rank) (hhigh : rank ≤ 9)
      (htoken : lexeme.token = .operator op) (hbinary : op.isBinary = true)
      (hrank : op.level.rank = rank) (hleft : ExprDerivation origin rank before left)
      (hright : ExprDerivation origin (rank + 1) behind right) :
      ExprDerivation origin rank (before ++ lexeme :: behind)
        (.binary left op right (origin.place lexeme))
  /-- An assignment groups to the right. -/
  | assignment {lexeme : Lexeme} {op : Operator} {before behind : List Lexeme} {left right : Expr}
      (htoken : lexeme.token = .operator op) (hassignment : op.isAssignment = true)
      (hleft : ExprDerivation origin 2 before left) (hright : ExprDerivation origin 1 behind right) :
      ExprDerivation origin 1 (before ++ lexeme :: behind)
        (.binary left op right (origin.place lexeme))

mutual

/-- A run of lexemes, with the token that follows it, derives a statement. -/
inductive StmtDerivation (origin : Origin) : List Lexeme → Option Token → Stmt → Prop where
  /-- What prints ends with its line or its block. -/
  | print {lexeme : Lexeme} {behind : List Lexeme} {next : Option Token} {expr : Expr}
      (htoken : lexeme.token = .keyword .print) (hexpr : ExprDerivation origin 1 behind expr)
      (hnext : next = none ∨ next = some .newline ∨ next = some .closeBrace) :
      StmtDerivation origin (lexeme :: behind) next (.print expr (origin.place lexeme))
  /-- What returns ends with its line. -/
  | ret {lexeme : Lexeme} {behind : List Lexeme} {next : Option Token} {expr : Expr}
      (htoken : lexeme.token = .keyword .ret) (hexpr : ExprDerivation origin 1 behind expr)
      (hnext : next = none ∨ next = some .newline) :
      StmtDerivation origin (lexeme :: behind) next (.ret expr (origin.place lexeme))
  /-- A condition and a block. -/
  | cond {lexeme : Lexeme} {test inside : List Lexeme} {next : Option Token} {condition : Expr}
      {body : Stmt} (htoken : lexeme.token = .keyword .cond)
      (htest : ExprDerivation origin 1 test condition) (hbody : BlockDerivation origin inside body) :
      StmtDerivation origin (lexeme :: (test ++ inside)) next
        (.cond condition body (origin.place lexeme))
  /-- A condition and two blocks. -/
  | condElse {lexeme middle : Lexeme} {test inside behind : List Lexeme} {next : Option Token}
      {condition : Expr} {body other : Stmt} (htoken : lexeme.token = .keyword .cond)
      (htest : ExprDerivation origin 1 test condition) (hbody : BlockDerivation origin inside body)
      (hmiddle : middle.token = .keyword .otherwise)
      (hother : BlockDerivation origin behind other) :
      StmtDerivation origin (lexeme :: (test ++ (inside ++ middle :: behind))) next
        (.condElse condition body other (origin.place lexeme))
  /-- An expression on its own, not followed by an operator. -/
  | expression {first : Lexeme} {others : List Lexeme} {next : Option Token} {expr : Expr}
      (hexpr : ExprDerivation origin 1 (first :: others) expr)
      (hnext : ∀ op, next ≠ some (.operator op)) :
      StmtDerivation origin (first :: others) next (.expression expr (origin.place first))

/-- A run of lexemes derives a block. -/
inductive BlockDerivation (origin : Origin) : List Lexeme → Stmt → Prop where
  /-- A row of statements in braces. -/
  | block {opening closing : Lexeme} {inside : List Lexeme} {body : List Stmt}
      (hopening : opening.token = .openBrace)
      (hinside : RowDerivation origin inside (some .closeBrace) body)
      (hclosing : closing.token = .closeBrace) :
      BlockDerivation origin (opening :: (inside ++ [closing])) (.block body (origin.place opening))

/-- A run of lexemes, with the token that follows it, derives statements with any newlines before,
between and behind them. -/
inductive RowDerivation (origin : Origin) : List Lexeme → Option Token → List Stmt → Prop where
  /-- No statements. -/
  | nil {next : Option Token} : RowDerivation origin [] next []
  /-- A newline in front. -/
  | newline {lexeme : Lexeme} {lexemes : List Lexeme} {next : Option Token} {row : List Stmt}
      (htoken : lexeme.token = .newline) (hrow : RowDerivation origin lexemes next row) :
      RowDerivation origin (lexeme :: lexemes) next row
  /-- A statement in front. -/
  | cons {lexemes behind : List Lexeme} {next : Option Token} {first : Stmt} {others : List Stmt}
      (hfirst : StmtDerivation origin lexemes ((nextToken behind).or next) first)
      (hothers : RowDerivation origin behind next others) :
      RowDerivation origin (lexemes ++ behind) next (first :: others)

end

/-- A list of lexemes derives a program: statements up to the end. -/
def Derivation (origin : Origin) (lexemes : List Lexeme) (program : List Stmt) : Prop :=
  RowDerivation origin lexemes none program

/-! ## How derivations begin and end -/

/-- Whether a token can begin an operand. -/
def opensOperand : Token → Bool
  | .name _ | .number _ | .text _ | .openParen | .keyword .typeOf => true
  | .operator op => op.isUnary
  | _ => false

/-- Whether a token can begin a statement. -/
def opensStatement : Token → Bool
  | .keyword .print | .keyword .ret | .keyword .cond => true
  | token => opensOperand token

/-- A token that begins an operand begins a statement. -/
theorem opensStatement_of_opensOperand {token : Token} (h : opensOperand token = true) :
    opensStatement token = true := by
  unfold opensStatement
  split
  · rfl
  · rfl
  · rfl
  · exact h

/-- An expression begins with a token that opens an operand. -/
theorem ExprDerivation.exists_first {origin : Origin} {rank : Nat} {lexemes : List Lexeme}
    {expr : Expr} (h : ExprDerivation origin rank lexemes expr) :
    ∃ first others, lexemes = first :: others ∧ opensOperand first.token = true := by
  induction h with
  | name htoken => exact ⟨_, _, rfl, by rw [htoken]; rfl⟩
  | number htoken => exact ⟨_, _, rfl, by rw [htoken]; rfl⟩
  | text htoken => exact ⟨_, _, rfl, by rw [htoken]; rfl⟩
  | group hopening _ _ _ => exact ⟨_, _, rfl, by rw [hopening]; rfl⟩
  | unary htoken hunary _ _ => exact ⟨_, _, rfl, by rw [htoken]; exact hunary⟩
  | typeOf htoken _ _ => exact ⟨_, _, rfl, by rw [htoken]; rfl⟩
  | tighter _ _ _ ih => exact ih
  | binary _ _ _ _ _ _ _ ih _ =>
    obtain ⟨first, others, rfl, hfirst⟩ := ih
    exact ⟨first, _, rfl, hfirst⟩
  | assignment _ _ _ _ ih _ =>
    obtain ⟨first, others, rfl, hfirst⟩ := ih
    exact ⟨first, _, rfl, hfirst⟩

/-- A statement begins with a token that opens a statement. -/
theorem StmtDerivation.exists_first {origin : Origin} {lexemes : List Lexeme} {next : Option Token}
    {stmt : Stmt} (h : StmtDerivation origin lexemes next stmt) :
    ∃ first others, lexemes = first :: others ∧ opensStatement first.token = true := by
  cases h with
  | print htoken _ _ => exact ⟨_, _, rfl, by rw [htoken]; rfl⟩
  | ret htoken _ _ => exact ⟨_, _, rfl, by rw [htoken]; rfl⟩
  | cond htoken _ _ => exact ⟨_, _, rfl, by rw [htoken]; rfl⟩
  | condElse htoken _ _ _ _ => exact ⟨_, _, rfl, by rw [htoken]; rfl⟩
  | expression hexpr _ =>
    obtain ⟨first, others, heq, hfirst⟩ := hexpr.exists_first
    exact ⟨first, others, heq, opensStatement_of_opensOperand hfirst⟩

end Scriptlet.Program
