import Scriptlet.Proofs.Nesting

/-! # The parsers recognise the grammar

What is read from a list of lexemes is derived by the grammar, and what the grammar derives is read.
In the first direction, the loop over operators keeps a bound on the rank of what it has read so
far; in the second, a derivation that begins with operators on its left is found from its first
operand on. Together they say that a program is read exactly when its lexemes derive it, and that
they derive at most one. -/

namespace Scriptlet

namespace Operator

/-- No operator is as loose as no operator at all. -/
theorem one_le_rank (op : Operator) : 1 ≤ op.level.rank := by
  cases op <;> decide

/-- No operator binds more tightly than those in front of operands. -/
theorem rank_le_ten (op : Operator) : op.level.rank ≤ 10 := by
  cases op <;> decide

/-- The assignments are the loosest operators. -/
theorem rank_eq_one_of_isAssignment {op : Operator} (h : op.isAssignment = true) :
    op.level.rank = 1 := by
  cases op <;> revert h <;> decide

/-- An assignment stands between operands. -/
theorem isBinary_of_isAssignment {op : Operator} (h : op.isAssignment = true) :
    op.isBinary = true := by
  cases op <;> revert h <;> decide

/-- The other operators between operands group to the left. -/
theorem rank_of_isBinary {op : Operator} (hbinary : op.isBinary = true)
    (hassignment : op.isAssignment = false) : 2 ≤ op.level.rank ∧ op.level.rank ≤ 9 := by
  cases op <;> revert hbinary hassignment <;> decide

/-- An operator of one of the ranks that group to the left is no assignment. -/
theorem isAssignment_of_two_le_rank {op : Operator} (h : 2 ≤ op.level.rank) :
    op.isAssignment = false := by
  cases hassignment : op.isAssignment with
  | false => rfl
  | true => rw [rank_eq_one_of_isAssignment hassignment] at h; omega

end Operator

namespace Program

/-! ## What is read is derived -/

/-- An expression of a rank is one of every lower rank. -/
theorem ExprDerivation.lower {origin : Origin} {rank lower : Nat} {lexemes : List Lexeme}
    {expr : Expr} (h : ExprDerivation origin rank lexemes expr) (hlow : 1 ≤ lower)
    (hle : lower ≤ rank) (hhigh : rank ≤ 10) : ExprDerivation origin lower lexemes expr := by
  induction hle with
  | refl => exact h
  | @step rank hle ih =>
    have hlow' : 1 ≤ rank := Nat.le_trans hlow hle
    exact ih (.tighter hlow' (by omega) h) (by omega)

/-- The rank of the expressions whose operators bind more tightly than a level. -/
def rankAbove (floor : Level) : Nat :=
  min 10 (floor.rank + 1)

/-- Reading an expression above a level derives it, and stops where it has to. -/
def ReadsExpr (origin : Origin) (expression : Level → Parser Expr) : Prop :=
  ∀ floor lexemes expr rest, expression floor lexemes = .ok (expr, rest) →
    ∃ used, lexemes = used ++ rest ∧ ExprDerivation origin (rankAbove floor) used expr ∧
      Stops floor rest

/-- A token that was expected and found is that of the first lexeme. -/
theorem expect_eq_ok {wanted : Expectation} {token : Token} {lexemes rest : List Lexeme}
    {lexeme : Lexeme} (h : expect wanted token lexemes = .ok (lexeme, rest)) :
    lexemes = lexeme :: rest ∧ lexeme.token = token := by
  cases lexemes with
  | nil => cases h
  | cons first others =>
    simp only [expect] at h
    split at h
    · rename_i htoken
      cases h
      exact ⟨rfl, htoken⟩
    · cases h

/-- What is read as an operand is derived as one. -/
theorem exprDerivation_of_operand {origin : Origin} {expression : Level → Parser Expr}
    (hexpression : ReadsExpr origin expression) {lexemes rest : List Lexeme} {expr : Expr}
    (h : operand origin expression lexemes = .ok (expr, rest)) :
    ∃ used, lexemes = used ++ rest ∧ ExprDerivation origin 10 used expr := by
  cases lexemes with
  | nil => cases h
  | cons lexeme others =>
    simp only [operand, bind] at h
    -- a name, a number, a string, a unary operator, a type query or a group
    split at h
    · rename_i spelling htoken
      cases h
      exact ⟨[lexeme], rfl, .name htoken⟩
    · rename_i value htoken
      cases h
      exact ⟨[lexeme], rfl, .number htoken⟩
    · rename_i content htoken
      cases h
      exact ⟨[lexeme], rfl, .text htoken⟩
    · rename_i op htoken
      split at h
      · rename_i hunary
        obtain ⟨⟨inner, after⟩, hinner, hresult⟩ := bind_eq_ok h
        obtain ⟨used, rfl, hused, -⟩ := hexpression _ _ _ _ hinner
        cases hresult
        exact ⟨lexeme :: used, rfl, .unary htoken hunary hused⟩
      · cases h
    · rename_i htoken
      obtain ⟨⟨inner, after⟩, hinner, hresult⟩ := bind_eq_ok h
      obtain ⟨used, rfl, hused, -⟩ := hexpression _ _ _ _ hinner
      cases hresult
      exact ⟨lexeme :: used, rfl, .typeOf htoken hused⟩
    · rename_i htoken
      obtain ⟨⟨inner, after⟩, hinner, hgroup⟩ := bind_eq_ok h
      obtain ⟨⟨closing, behind⟩, hclosing, hresult⟩ := bind_eq_ok hgroup
      obtain ⟨used, rfl, hused, -⟩ := hexpression _ _ _ _ hinner
      obtain ⟨rfl, hclose⟩ := expect_eq_ok hclosing
      cases hresult
      exact ⟨lexeme :: (used ++ [closing]), by simp, .group htoken hused hclose⟩
    · cases h

/-- What may follow an expression of a rank: an operator that binds at most as tightly, and none at
all behind a whole expression. -/
def Follows (rank : Nat) (lexemes : List Lexeme) : Prop :=
  ∀ op, nextToken lexemes = some (.operator op) → op.level.rank ≤ rank ∧ 2 ≤ rank

/-- What may follow an expression of a rank may follow one of a greater rank. -/
theorem Follows.mono {rank rank' : Nat} {lexemes : List Lexeme} (h : Follows rank lexemes)
    (hle : rank ≤ rank') : Follows rank' lexemes :=
  fun op hop => ⟨Nat.le_trans (h op hop).1 hle, Nat.le_trans (h op hop).2 hle⟩

/-- Any operator may follow an operand. -/
theorem follows_ten (lexemes : List Lexeme) : Follows 10 lexemes :=
  fun op _ => ⟨op.rank_le_ten, by omega⟩

/-- Nothing but an operator is kept from following a whole expression. -/
theorem follows_one_iff {lexemes : List Lexeme} :
    Follows 1 lexemes ↔ ∀ op, nextToken lexemes ≠ some (.operator op) := by
  constructor
  · intro h op hop
    have htwo : 2 ≤ 1 := (h op hop).2
    omega
  · intro h op hop
    exact absurd hop (h op)

/-- What stops a whole expression is no operator. -/
theorem ne_operator_of_stops {lexemes : List Lexeme} (h : Stops .lowest lexemes) (op : Operator) :
    nextToken lexemes ≠ some (.operator op) := by
  intro hop
  have hrank : op.level.rank ≤ 0 := h op hop
  have hpos := op.one_le_rank
  omega

/-- An operator between an expression that it may follow and what was read behind it derives an
expression of the operator's own rank, and what stopped the right operand may follow the whole. -/
theorem exprDerivation_of_operator {origin : Origin} {rank : Nat} {lexeme : Lexeme} {op : Operator}
    {before inside rest : List Lexeme} {left right : Expr} (htoken : lexeme.token = .operator op)
    (hbinary : op.isBinary = true) (hleft : ExprDerivation origin rank before left)
    (hhigh : rank ≤ 10) (hrank : op.level.rank ≤ rank) (htwo : 2 ≤ rank)
    (hright : ExprDerivation origin (rankAbove op.rightLevel) inside right)
    (hstops : Stops op.rightLevel rest) :
    ExprDerivation origin op.level.rank (before ++ lexeme :: inside)
        (.binary left op right (origin.place lexeme)) ∧
      op.level.rank ≤ 9 ∧ Follows op.level.rank rest := by
  cases hassignment : op.isAssignment with
  | true =>
    -- the right operand is a whole expression, with no operator behind it
    rw [Operator.rightLevel, if_pos hassignment] at hright hstops
    rw [Operator.rank_eq_one_of_isAssignment hassignment]
    exact ⟨.assignment htoken hassignment (hleft.lower (by omega) htwo hhigh) hright, by omega,
      follows_one_iff.mpr (ne_operator_of_stops hstops)⟩
  | false =>
    -- the right operand binds more tightly than the operator, and a looser one may follow it
    obtain ⟨hlow, hhigh'⟩ := Operator.rank_of_isBinary hbinary hassignment
    have habove : rankAbove op.level = op.level.rank + 1 := by unfold rankAbove; omega
    rw [Operator.rightLevel, if_neg (by rw [hassignment]; exact Bool.false_ne_true)] at hright hstops
    rw [habove] at hright
    exact ⟨.binary hlow hhigh' htoken hbinary rfl (hleft.lower (by omega) hrank hhigh) hright, hhigh',
      fun op' hop' => ⟨hstops op' hop', hlow⟩⟩

/-- Extending an expression derives the extended one. The invariant of the loop is the rank of what
was read so far, which the operator in front does not exceed. -/
theorem exprDerivation_of_climb {origin : Origin} {expression : Level → Parser Expr}
    (hconsumes : ∀ level, Consumes (expression level)) (hexpression : ReadsExpr origin expression)
    (floor : Level) (left : Expr) (lexemes : List Lexeme) {rank : Nat} {before : List Lexeme}
    {expr : Expr} {rest : List Lexeme} (hleft : ExprDerivation origin rank before left)
    (hlow : rankAbove floor ≤ rank) (hhigh : rank ≤ 10) (hfollows : Follows rank lexemes)
    (h : climb origin expression floor left lexemes = .ok (expr, rest)) :
    ∃ used, lexemes = used ++ rest ∧
      ExprDerivation origin (rankAbove floor) (before ++ used) expr ∧ Stops floor rest := by
  induction left, lexemes using climb_induction origin hconsumes floor generalizing rank before with
  | stop left lexemes hstops =>
    rw [climb_stop origin hstops] at h
    cases h
    refine ⟨[], rfl, ?_, hstops⟩
    rw [List.append_nil]
    exact hleft.lower (by unfold rankAbove; omega) hlow hhigh
  | reject left lexeme op behind htoken hfloor hbinary =>
    rw [climb_reject origin htoken hfloor hbinary] at h
    cases h
  | extend left lexeme op behind htoken hfloor hbinary ih =>
    rw [climb_operator origin hconsumes htoken hfloor hbinary] at h
    obtain ⟨⟨right, after⟩, hright, hclimb⟩ := bind_eq_ok h
    obtain ⟨hrank, htwo⟩ := hfollows op (by rw [nextToken_cons, htoken])
    obtain ⟨inside, rfl, hinside, hstops⟩ := hexpression _ _ _ _ hright
    -- from here on the rank of what was read so far is that of the operator
    obtain ⟨hextended, hnine, hafter⟩ :=
      exprDerivation_of_operator htoken hbinary hleft hhigh hrank htwo hinside hstops
    have habove : rankAbove floor ≤ op.level.rank := by unfold rankAbove; omega
    obtain ⟨used, rfl, hused, hend⟩ :=
      ih right after hright hextended habove (by omega) hafter hclimb
    refine ⟨lexeme :: inside ++ used, by simp, ?_, hend⟩
    rw [List.append_assoc] at hused
    exact hused

/-- What is read as an expression is derived as one. -/
theorem expression_reads (origin : Origin) (limit : Nat) :
    ReadsExpr origin (expression origin limit) := by
  induction limit with
  | zero => intro floor lexemes expr rest h; cases h
  | succ limit ih =>
    intro floor lexemes expr rest h
    obtain ⟨⟨left, after⟩, hleft, hclimb⟩ := bind_eq_ok h
    obtain ⟨before, rfl, hbefore⟩ := exprDerivation_of_operand ih hleft
    obtain ⟨used, rfl, hused, hstops⟩ := exprDerivation_of_climb (expression_consumes origin limit) ih
      floor left after hbefore (by unfold rankAbove; omega) (by omega) (follows_ten after) hclimb
    exact ⟨before ++ used, by simp, hused, hstops⟩

/-- Reading a statement derives it in front of the token that follows. -/
def ReadsStmt (origin : Origin) (statement : Parser Stmt) : Prop :=
  ∀ lexemes stmt rest, statement lexemes = .ok (stmt, rest) →
    ∃ used, lexemes = used ++ rest ∧ StmtDerivation origin used (nextToken rest) stmt

/-- What is read as the inside of a block is derived as a row, up to the closing brace. -/
theorem rowDerivation_of_body {origin : Origin} {statement : Parser Stmt}
    (hconsumes : Consumes statement) (hstatement : ReadsStmt origin statement)
    (lexemes : List Lexeme) {row : List Stmt} {rest : List Lexeme}
    (h : body statement lexemes = .ok (row, rest)) :
    ∃ inside closing, lexemes = inside ++ closing :: rest ∧ closing.token = .closeBrace ∧
      RowDerivation origin inside (some .closeBrace) row := by
  induction lexemes using row_induction hconsumes generalizing row with
  | nil =>
    rw [body_nil] at h
    cases h
  | newline lexeme others htoken ih =>
    rw [body_newline htoken] at h
    obtain ⟨inside, closing, rfl, hclosing, hrow⟩ := ih h
    exact ⟨lexeme :: inside, closing, rfl, hclosing, .newline htoken hrow⟩
  | step lexeme others hnewline ih =>
    by_cases hclose : lexeme.token = .closeBrace
    · rw [body_close hclose] at h
      cases h
      exact ⟨[], lexeme, rfl, hclose, .nil⟩
    -- what follows the statement begins the rest of the row, or else it is the closing brace
    · rw [body_statement hconsumes hnewline hclose] at h
      obtain ⟨⟨first, after⟩, hfirst, hmore⟩ := bind_eq_ok h
      obtain ⟨⟨more, behind⟩, hbody, hresult⟩ := bind_eq_ok hmore
      cases hresult
      obtain ⟨inside, closing, rfl, hclosing, hrow⟩ := ih first after hfirst hbody
      obtain ⟨used, hused, hstmt⟩ := hstatement _ _ _ hfirst
      rw [nextToken_append, nextToken_cons, hclosing] at hstmt
      exact ⟨used ++ inside, closing, by rw [hused, List.append_assoc], hclosing, .cons hstmt hrow⟩

/-- What is read as a block is derived as one. -/
theorem blockDerivation_of_block {origin : Origin} {statement : Parser Stmt}
    (hconsumes : Consumes statement) (hstatement : ReadsStmt origin statement)
    {wanted : Expectation} {lexemes rest : List Lexeme} {stmt : Stmt}
    (h : block origin wanted statement lexemes = .ok (stmt, rest)) :
    ∃ used, lexemes = used ++ rest ∧ BlockDerivation origin used stmt := by
  obtain ⟨⟨opening, inner⟩, hopening, hinner⟩ := bind_eq_ok h
  obtain ⟨⟨row, behind⟩, hrow, hresult⟩ := bind_eq_ok hinner
  obtain ⟨rfl, hopen⟩ := expect_eq_ok hopening
  obtain ⟨inside, closing, rfl, hclosing, hinside⟩ :=
    rowDerivation_of_body hconsumes hstatement _ hrow
  cases hresult
  exact ⟨opening :: (inside ++ [closing]), by simp, .block hopen hinside hclosing⟩

/-- What is read behind the word of a conditional statement is derived as one. -/
theorem stmtDerivation_of_conditional {origin : Origin} {lexeme : Lexeme}
    {expression : Level → Parser Expr} {statement : Parser Stmt} (hconsumes : Consumes statement)
    (hexpression : ReadsExpr origin expression) (hstatement : ReadsStmt origin statement)
    (htoken : lexeme.token = .keyword .cond) {lexemes rest : List Lexeme} {stmt : Stmt}
    (h : conditional origin (origin.place lexeme) expression statement lexemes = .ok (stmt, rest)) :
    ∃ used, lexeme :: lexemes = used ++ rest ∧ StmtDerivation origin used (nextToken rest) stmt := by
  obtain ⟨⟨condition, afterCondition⟩, hcondition, hnext⟩ := bind_eq_ok h
  obtain ⟨⟨body, afterBody⟩, hbody, hlast⟩ := bind_eq_ok hnext
  obtain ⟨test, rfl, htest, -⟩ := hexpression _ _ _ _ hcondition
  obtain ⟨inside, rfl, hinside⟩ := blockDerivation_of_block hconsumes hstatement hbody
  dsimp only at hlast
  split at hlast
  · cases hlast
    exact ⟨lexeme :: (test ++ inside), by simp, .cond htoken htest hinside⟩
  · rename_i middle after
    split at hlast
    -- only the word for another body makes the statement go on
    · rename_i hmiddle
      obtain ⟨⟨other, behind⟩, hother, hresult⟩ := bind_eq_ok hlast
      obtain ⟨inside', rfl, hinside'⟩ := blockDerivation_of_block hconsumes hstatement hother
      cases hresult
      exact ⟨lexeme :: (test ++ (inside ++ middle :: inside')), by simp,
        .condElse htoken htest hinside hmiddle hinside'⟩
    · cases hlast
      exact ⟨lexeme :: (test ++ inside), by simp, .cond htoken htest hinside⟩

/-- What is read as an expression on its own is derived as a statement. -/
theorem stmtDerivation_of_expression {origin : Origin} {expression : Level → Parser Expr}
    (hexpression : ReadsExpr origin expression) {lexeme : Lexeme} {lexemes rest : List Lexeme}
    {expr : Expr} (h : expression .lowest (lexeme :: lexemes) = .ok (expr, rest)) :
    ∃ used, lexeme :: lexemes = used ++ rest ∧
      StmtDerivation origin used (nextToken rest) (.expression expr (origin.place lexeme)) := by
  obtain ⟨used, hused, hderives, hstops⟩ := hexpression _ _ _ _ h
  -- an expression is never empty, so the lexeme in front is its own
  obtain ⟨first, more, rfl, -⟩ := hderives.exists_first
  obtain ⟨rfl, rfl⟩ := List.cons.inj hused
  exact ⟨lexeme :: more, rfl, .expression hderives (ne_operator_of_stops hstops)⟩

/-- What is read as a statement is derived as one. -/
theorem statement_reads (origin : Origin) (limit : Nat) :
    ReadsStmt origin (statement origin limit) := by
  induction limit with
  -- without levels left no statement is read
  | zero => intro lexemes stmt rest h; cases h
  | succ limit ih =>
    have hexpression := expression_reads origin limit
    intro lexemes stmt rest h
    cases lexemes with
    | nil => cases h
    | cons lexeme others =>
      rcases statement_forms lexeme.token with htoken | htoken | htoken | htoken | htoken
      · rw [statement_print others htoken] at h
        obtain ⟨expr, hexpr, hends, rfl⟩ := exists_of_terminated h
        obtain ⟨used, rfl, hused, -⟩ := hexpression _ _ _ _ hexpr
        simp only [EndsBy, List.mem_cons, List.not_mem_nil, or_false, exists_eq_or_imp,
          exists_eq_left] at hends
        exact ⟨lexeme :: used, rfl, .print htoken hused hends⟩
      · rw [statement_ret others htoken] at h
        obtain ⟨expr, hexpr, hends, rfl⟩ := exists_of_terminated h
        obtain ⟨used, rfl, hused, -⟩ := hexpression _ _ _ _ hexpr
        simp only [EndsBy, List.mem_singleton, exists_eq_left] at hends
        exact ⟨lexeme :: used, rfl, .ret htoken hused hends⟩
      · rw [statement_cond others htoken] at h
        exact stmtDerivation_of_conditional (statement_consumes origin limit) hexpression ih htoken h
      · rw [statement_unsupported others htoken] at h
        cases h
      · rw [statement_expression others htoken] at h
        obtain ⟨⟨expr, after⟩, hexpr, hresult⟩ := bind_eq_ok h
        cases hresult
        exact stmtDerivation_of_expression hexpression hexpr

/-- What is read as a program is derived as one. -/
theorem derivation_of_ofLexemes {origin : Origin} {limit : Nat} (lexemes : List Lexeme)
    {program : List Stmt} (h : ofLexemes origin limit lexemes = .ok program) :
    Derivation origin lexemes program := by
  have hconsumes := statement_consumes origin limit
  rw [ofLexemes] at h
  induction lexemes using row_induction hconsumes generalizing program with
  | nil =>
    rw [statements_nil] at h
    cases h
    exact .nil
  | newline lexeme rest htoken ih =>
    rw [statements_newline htoken] at h
    exact .newline htoken (ih h)
  | step lexeme rest hnewline ih =>
    rw [statements_statement hconsumes hnewline] at h
    obtain ⟨⟨first, after⟩, hfirst, hmore⟩ := bind_eq_ok h
    obtain ⟨others, hothers, hresult⟩ := bind_eq_ok hmore
    cases hresult
    -- what follows the statement is what the rest of the program begins with
    obtain ⟨used, hused, hstmt⟩ := statement_reads origin limit _ _ _ hfirst
    rw [hused]
    exact .cons (by rw [Option.or_none]; exact hstmt) (ih first after hfirst hothers)

/-! ## What is derived is read -/

/-- A run of lexemes is found as an expression of a rank: behind its first operand, extending above
any level below the rank comes to the expression. -/
def IsFound (origin : Origin) (rank : Nat) (used : List Lexeme) (expr : Expr) : Prop :=
  ∀ limit rest, (used ++ rest).length ≤ limit → Follows rank rest →
    ∃ left after, operand origin (expression origin limit) (used ++ rest) = .ok (left, after) ∧
      ∀ floor, rankAbove floor ≤ rank →
        climb origin (expression origin limit) floor left after =
          climb origin (expression origin limit) floor expr rest

/-- What is found as an expression is read as one where it stops. -/
theorem IsFound.expression_eq {origin : Origin} {rank : Nat} {used : List Lexeme} {expr : Expr}
    (h : IsFound origin rank used expr) (floor : Level) {limit : Nat} {rest : List Lexeme}
    (hlimit : (used ++ rest).length < limit) (hfollows : Follows rank rest)
    (hfloor : rankAbove floor ≤ rank) (hstops : Stops floor rest) :
    expression origin limit floor (used ++ rest) = .ok (expr, rest) := by
  cases limit with
  | zero => omega
  | succ limit =>
    obtain ⟨left, after, hoperand, hclimb⟩ := h limit rest (Nat.le_of_lt_succ hlimit) hfollows
    have hbind : expression origin (limit + 1) floor (used ++ rest) =
        climb origin (expression origin limit) floor left after := by
      simp only [expression, hoperand]
      rfl
    rw [hbind, hclimb floor hfloor]
    exact climb_stop origin hstops

/-- Behind what is found on its left, an operator takes what is found on its right and leads to the
expression of both. -/
theorem IsFound.extend {origin : Origin} {rank leftRank rightRank : Nat} {lexeme : Lexeme}
    {op : Operator} {before behind : List Lexeme} {left right : Expr}
    (hleft : IsFound origin leftRank before left) (hright : IsFound origin rightRank behind right)
    (htoken : lexeme.token = .operator op) (hbinary : op.isBinary = true)
    (hrank : op.level.rank = rank) (hnine : rank ≤ 9) (htwo : 2 ≤ leftRank) (hle : rank ≤ leftRank)
    (hle' : rank ≤ rightRank) (habove : rankAbove op.rightLevel ≤ rightRank)
    (hstops : ∀ rest, Follows rank rest → Stops op.rightLevel rest) :
    IsFound origin rank (before ++ lexeme :: behind) (.binary left op right (origin.place lexeme)) := by
  intro limit rest hlimit hfollows
  rw [List.append_assoc, List.cons_append] at hlimit ⊢
  -- the left operand may be followed by this operator
  have hfollowsLeft : Follows leftRank (lexeme :: (behind ++ rest)) := by
    intro op' hop'
    rw [nextToken_cons, htoken] at hop'
    cases hop'
    exact ⟨by omega, htwo⟩
  obtain ⟨first, after, hoperand, hclimb⟩ := hleft limit _ hlimit hfollowsLeft
  refine ⟨first, after, hoperand, fun floor hfloor => ?_⟩
  have hbehind : (behind ++ rest).length < limit := by
    simp only [List.length_append, List.length_cons] at hlimit ⊢
    omega
  -- and the right operand stops where the whole does
  have hread := hright.expression_eq op.rightLevel hbehind (hfollows.mono hle') habove
    (hstops rest hfollows)
  have hbelow : floor.rank < op.level.rank := by unfold rankAbove at hfloor; omega
  rw [hclimb floor (by omega),
    climb_operator origin (expression_consumes origin limit) htoken hbelow hbinary, andThen, hread]
  rfl

/-- What is derived as an expression is found as one. -/
theorem ExprDerivation.isFound {origin : Origin} {rank : Nat} {used : List Lexeme} {expr : Expr}
    (h : ExprDerivation origin rank used expr) : IsFound origin rank used expr := by
  -- operands are found at once; only operators between operands need the loop
  induction h with
  | name htoken =>
    intro limit rest _ _
    exact ⟨_, rest, by simp only [List.cons_append, operand, htoken]; rfl, fun _ _ => rfl⟩
  | number htoken =>
    intro limit rest _ _
    exact ⟨_, rest, by simp only [List.cons_append, operand, htoken]; rfl, fun _ _ => rfl⟩
  | text htoken =>
    intro limit rest _ _
    exact ⟨_, rest, by simp only [List.cons_append, operand, htoken]; rfl, fun _ _ => rfl⟩
  | @group opening closing inside expr hopening _ hclosing ih =>
    intro limit rest hlimit _
    simp only [List.cons_append, List.append_assoc, List.nil_append, List.length_cons] at hlimit ⊢
    have hne : ∀ op, nextToken (closing :: rest) ≠ some (.operator op) := by
      rw [nextToken_cons, hclosing]
      simp
    have hinside := ih.expression_eq .lowest hlimit
      (follows_one_iff.mpr hne) (by decide) (stops_of_ne_operator hne)
    refine ⟨expr, rest, ?_, fun _ _ => rfl⟩
    simp only [operand, hopening, hinside]
    show (expect .closeGroup .closeParen (closing :: rest)).bind _ = _
    simp only [expect, hclosing, if_true]
    rfl
  | @unary lexeme op inside inner htoken hunary _ ih =>
    intro limit rest hlimit _
    have hinside := ih.expression_eq .unary hlimit (follows_ten rest) (by decide)
      (fun op _ => op.rank_le_ten)
    refine ⟨_, rest, ?_, fun _ _ => rfl⟩
    simp only [List.cons_append, operand, htoken, hunary, if_true, hinside]
    rfl
  | @typeOf lexeme inside inner htoken _ ih =>
    intro limit rest hlimit _
    have hinside := ih.expression_eq .unary hlimit (follows_ten rest) (by decide)
      (fun op _ => op.rank_le_ten)
    refine ⟨_, rest, ?_, fun _ _ => rfl⟩
    simp only [List.cons_append, operand, htoken, hinside]
    rfl
  | tighter hlow hhigh _ ih =>
    intro limit rest hlimit hfollows
    obtain ⟨left, after, hoperand, hclimb⟩ :=
      ih limit rest hlimit (hfollows.mono (Nat.le_succ _))
    exact ⟨left, after, hoperand, fun floor hfloor => hclimb floor (by omega)⟩
  | @binary rank lexeme op before behind left right hlow hhigh htoken hbinary hrank _ _ ihl ihr =>
    have hlevel : op.rightLevel = op.level := by
      rw [Operator.rightLevel, Operator.isAssignment_of_two_le_rank (by omega)]
      rfl
    refine ihl.extend ihr htoken hbinary hrank hhigh hlow (Nat.le_refl _) (Nat.le_succ _) ?_ ?_
    · rw [hlevel, rankAbove]
      omega
    · intro rest hfollows op' hop'
      rw [hlevel, hrank]
      exact (hfollows op' hop').1
  | @assignment lexeme op before behind left right htoken hassignment _ _ ihl ihr =>
    have hlevel : op.rightLevel = .lowest := by
      rw [Operator.rightLevel, hassignment]
      rfl
    refine ihl.extend ihr htoken (Operator.isBinary_of_isAssignment hassignment)
      (Operator.rank_eq_one_of_isAssignment hassignment) (by omega) (Nat.le_refl _) (by omega)
      (Nat.le_refl _) ?_ ?_
    · rw [hlevel]
      decide
    · intro rest hfollows
      exact stops_of_ne_operator (follows_one_iff.mp hfollows)

/-- What is derived as a whole expression is read as one, unless an operator follows. -/
theorem ExprDerivation.expression_eq {origin : Origin} {used : List Lexeme} {expr : Expr}
    (h : ExprDerivation origin 1 used expr) {limit : Nat} {rest : List Lexeme}
    (hlimit : (used ++ rest).length < limit)
    (hnext : ∀ op, nextToken rest ≠ some (.operator op)) :
    expression origin limit .lowest (used ++ rest) = .ok (expr, rest) :=
  h.isFound.expression_eq .lowest hlimit (follows_one_iff.mpr hnext) (by decide)
    (stops_of_ne_operator hnext)

/-- No statement opens with a newline. -/
theorem ne_newline_of_opensStatement {token : Token} (h : opensStatement token = true) :
    token ≠ .newline := by
  rintro rfl
  cases h

/-- No statement opens with a closing brace. -/
theorem ne_closeBrace_of_opensStatement {token : Token} (h : opensStatement token = true) :
    token ≠ .closeBrace := by
  rintro rfl
  cases h

/-- What opens an operand is no word that decides the form of a statement. -/
theorem isStatementWord_of_opensOperand {token : Token} (h : opensOperand token = true) :
    isStatementWord token = false := by
  unfold isStatementWord
  split
  · cases h
  · cases h
  · cases h
  · cases h
  · cases h
  · rfl

/-- A block begins with a brace, and so with no operator. -/
theorem BlockDerivation.nextToken_ne_operator {origin : Origin} {used : List Lexeme} {stmt : Stmt}
    (h : BlockDerivation origin used stmt) (rest : List Lexeme) (op : Operator) :
    nextToken (used ++ rest) ≠ some (.operator op) := by
  cases h with
  | block hopening _ _ =>
    rw [List.cons_append, nextToken_cons, hopening]
    exact nofun

section Conditional

variable {origin : Origin} {place : Option Position} {expression : Level → Parser Expr}
  {statement : Parser Stmt} {lexemes afterCondition rest : List Lexeme} {condition : Expr}
  {body : Stmt} (hcondition : expression .lowest lexemes = .ok (condition, afterCondition))

include hcondition

/-- A conditional statement without an alternative. -/
theorem conditional_eq_cond
    (hbody : block origin .bodyOfCondition statement afterCondition = .ok (body, rest))
    (hrest : nextToken rest ≠ some (.keyword .otherwise)) :
    conditional origin place expression statement lexemes =
      .ok (.cond condition body place, rest) := by
  simp only [conditional, hcondition]
  show (block origin .bodyOfCondition statement afterCondition).bind _ = _
  rw [hbody]
  -- an alternative would be taken, so none may follow
  cases rest with
  | nil => rfl
  | cons lexeme after => exact if_neg fun h => hrest (by rw [nextToken_cons, h])

/-- A conditional statement with an alternative. -/
theorem conditional_eq_condElse {middle : Lexeme} {after : List Lexeme} {other : Stmt}
    (hbody : block origin .bodyOfCondition statement afterCondition = .ok (body, middle :: after))
    (hmiddle : middle.token = .keyword .otherwise)
    (hother : block origin .bodyOfAlternative statement after = .ok (other, rest)) :
    conditional origin place expression statement lexemes =
      .ok (.condElse condition body other place, rest) := by
  simp only [conditional, hcondition]
  show (block origin .bodyOfCondition statement afterCondition).bind _ = _
  rw [hbody]
  show (if middle.token = .keyword .otherwise then _ else _) = _
  rw [if_pos hmiddle, hother]
  rfl

end Conditional

/-- No row of statements begins with the word of an alternative. -/
theorem RowDerivation.nextToken_ne_otherwise {origin : Origin} {lexemes : List Lexeme}
    {next : Option Token} {row : List Stmt} (h : RowDerivation origin lexemes next row)
    (hnext : next ≠ some (.keyword .otherwise)) :
    (nextToken lexemes).or next ≠ some (.keyword .otherwise) := by
  cases h with
  | nil => exact hnext
  | newline htoken _ =>
    rw [nextToken_cons, htoken]
    exact nofun
  | cons hfirst _ =>
    obtain ⟨first, others, rfl, hopens⟩ := hfirst.exists_first
    intro hother
    have htoken : first.token = .keyword .otherwise := Option.some.inj hother
    rw [htoken] at hopens
    cases hopens

mutual

/-- What is derived as a statement in front of a token is read as one. The word of an alternative
never follows a statement, or else it would belong to it. -/
theorem StmtDerivation.statement_eq {origin : Origin} {used : List Lexeme} {next : Option Token}
    {stmt : Stmt} (limit : Nat) (rest : List Lexeme) (hlimit : (used ++ rest).length < limit)
    (hrest : nextToken rest = next) (hother : next ≠ some (.keyword .otherwise)) :
    StmtDerivation origin used next stmt →
      statement origin (limit + 1) (used ++ rest) = .ok (stmt, rest)
  | .print htoken hexpr hnext => by
    have hends : EndsBy [.newline, .closeBrace] rest := by simpa [EndsBy, hrest] using hnext
    have hread := hexpr.expression_eq (Nat.lt_of_succ_lt hlimit)
      (by rw [hrest]; rcases hnext with rfl | rfl | rfl <;> exact nofun)
    rw [List.cons_append, statement_print _ htoken]
    exact terminated_of_ok hread hends
  | .ret htoken hexpr hnext => by
    have hends : EndsBy [.newline] rest := by simpa [EndsBy, hrest] using hnext
    have hread := hexpr.expression_eq (Nat.lt_of_succ_lt hlimit)
      (by rw [hrest]; rcases hnext with rfl | rfl <;> exact nofun)
    rw [List.cons_append, statement_ret _ htoken]
    exact terminated_of_ok hread hends
  -- no word for another body follows, so the parser does not look for one
  | .cond htoken htest hbody => by
    rw [List.cons_append, List.append_assoc, List.length_cons] at hlimit
    rw [List.cons_append, List.append_assoc]
    have hne := hbody.nextToken_ne_operator rest
    have hcondition := htest.expression_eq (Nat.lt_of_succ_lt hlimit) hne
    have hblock := BlockDerivation.block_eq limit .bodyOfCondition rest
      (by simp only [List.length_append] at hlimit ⊢; omega) hbody
    rw [statement_cond _ htoken]
    exact conditional_eq_cond hcondition hblock (by rw [hrest]; exact hother)
  | @StmtDerivation.condElse _ _ middle test inside behind _ _ _ _ htoken htest hbody hmiddle hbehind =>
      by
    simp only [List.cons_append, List.append_assoc, List.length_cons] at hlimit ⊢
    have hne := hbody.nextToken_ne_operator (middle :: (behind ++ rest))
    have hcondition := htest.expression_eq (Nat.lt_of_succ_lt hlimit) hne
    simp only [List.length_append, List.length_cons] at hlimit
    have hblock := BlockDerivation.block_eq limit .bodyOfCondition (middle :: (behind ++ rest))
      (by simp only [List.length_append, List.length_cons]; omega) hbody
    have hblock' := BlockDerivation.block_eq limit .bodyOfAlternative rest
      (by simp only [List.length_append]; omega) hbehind
    rw [statement_cond _ htoken]
    exact conditional_eq_condElse hcondition hblock hmiddle hblock'
  | .expression hexpr hnext => by
    obtain ⟨first, others, hfirst, hopens⟩ := hexpr.exists_first
    obtain ⟨rfl, rfl⟩ := List.cons.inj hfirst
    have hread := hexpr.expression_eq hlimit (by rw [hrest]; exact hnext)
    rw [List.cons_append] at hread ⊢
    rw [statement_expression _ (isStatementWord_of_opensOperand hopens), andThen, hread]
    rfl

/-- What is derived as a block is read as one. -/
theorem BlockDerivation.block_eq {origin : Origin} {used : List Lexeme} {stmt : Stmt} (limit : Nat)
    (wanted : Expectation) (rest : List Lexeme) (hlimit : (used ++ rest).length < limit) :
    BlockDerivation origin used stmt →
      block origin wanted (statement origin limit) (used ++ rest) = .ok (stmt, rest)
  | @BlockDerivation.block _ opening closing inside body hopening hinside hclosing => by
    simp only [List.cons_append, List.append_assoc, List.nil_append, List.length_cons] at hlimit ⊢
    have hbody := RowDerivation.body_eq limit closing rest (by omega) hclosing rfl hinside
    simp only [block, expect, hopening, if_true]
    show (Program.body _ _).bind _ = _
    rw [hbody]
    rfl

/-- What is derived as the inside of a block is read as one. -/
theorem RowDerivation.body_eq {origin : Origin} {used : List Lexeme} {next : Option Token}
    {row : List Stmt} (limit : Nat) (closing : Lexeme) (rest : List Lexeme)
    (hlimit : (used ++ closing :: rest).length + 1 < limit) (hclosing : closing.token = .closeBrace)
    (hnext : next = some .closeBrace) :
    RowDerivation origin used next row →
      body (statement origin limit) (used ++ closing :: rest) = .ok (row, rest)
  | .nil => body_close hclosing
  | .newline htoken hrow => by
    rw [List.cons_append, body_newline htoken]
    exact RowDerivation.body_eq limit closing rest (Nat.lt_of_succ_lt hlimit) hclosing hnext hrow
  | @RowDerivation.cons _ lexemes behind _ first others hfirst hothers => by
    obtain ⟨limit, rfl⟩ : ∃ smaller, limit = smaller + 1 := ⟨limit - 1, by omega⟩
    rw [List.append_assoc] at hlimit ⊢
    have hrest : nextToken (behind ++ closing :: rest) = (nextToken behind).or next := by
      rw [nextToken_append, nextToken_cons, hclosing, hnext]
    -- the derivation of the first statement already knows the token that follows it here
    have hstatement := StmtDerivation.statement_eq limit (behind ++ closing :: rest) (by omega) hrest
      (hothers.nextToken_ne_otherwise (by rw [hnext]; exact nofun)) hfirst
    have hbody := RowDerivation.body_eq (limit + 1) closing rest
      (by simp only [List.length_append] at hlimit ⊢; omega) hclosing hnext hothers
    obtain ⟨lexeme, more, rfl, hopens⟩ := hfirst.exists_first
    rw [List.cons_append] at hstatement ⊢
    rw [body_statement (statement_consumes origin _) (ne_newline_of_opensStatement hopens)
      (ne_closeBrace_of_opensStatement hopens), andThen, hstatement]
    show (body _ _).bind _ = _
    rw [hbody]
    rfl

end

/-- What is derived as a row up to the end is read as one. -/
theorem RowDerivation.statements_eq {origin : Origin} {used : List Lexeme} {next : Option Token}
    {row : List Stmt} (limit : Nat) (hlimit : used.length < limit) (hnext : next = none) :
    RowDerivation origin used next row →
      statements (statement origin (limit + 1)) used = .ok row
  | .nil => statements_nil
  | .newline htoken hrow => by
    rw [statements_newline htoken]
    exact RowDerivation.statements_eq limit (Nat.lt_of_succ_lt hlimit) hnext hrow
  | @RowDerivation.cons _ lexemes behind _ first others hfirst hothers => by
    have hrest : nextToken behind = (nextToken behind).or next := by rw [hnext, Option.or_none]
    -- a word for another body cannot follow, since no statement opens with it
    have hstatement := hfirst.statement_eq limit behind hlimit hrest
      (hothers.nextToken_ne_otherwise (by rw [hnext]; exact nofun))
    have hmore := RowDerivation.statements_eq limit
      (by simp only [List.length_append] at hlimit; omega) hnext hothers
    obtain ⟨lexeme, more, rfl, hopens⟩ := hfirst.exists_first
    rw [List.cons_append] at hstatement ⊢
    rw [statements_statement (statement_consumes origin _) (ne_newline_of_opensStatement hopens),
      hstatement]
    show (statements _ _).bind _ = _
    rw [hmore]
    rfl

/-- What is derived as a program is read as one, under every limit that its lexemes cannot reach. -/
theorem ofLexemes_of_derivation {origin : Origin} {lexemes : List Lexeme} {program : List Stmt}
    (h : Derivation origin lexemes program) {limit : Nat} (hlimit : lexemes.length + 1 < limit) :
    ofLexemes origin limit lexemes = .ok program := by
  obtain ⟨limit, rfl⟩ : ∃ smaller, limit = smaller + 1 := ⟨limit - 1, by omega⟩
  exact RowDerivation.statements_eq limit (by omega) rfl h

/-- An answer that does not complain of the nesting is the answer of the grammar. -/
theorem ofLexemes_iff_of_ne_tooDeep {origin : Origin} {limit : Nat} {lexemes : List Lexeme}
    (hdeep : ofLexemes origin limit lexemes ≠ .error .tooDeep) (program : List Stmt) :
    ofLexemes origin limit lexemes = .ok program ↔ Derivation origin lexemes program := by
  refine ⟨derivation_of_ofLexemes lexemes, fun h => ?_⟩
  -- a limit out of reach gives the answer of the grammar, and the given limit agrees with it
  have hhigher := ofLexemes_settles origin (Nat.le_add_right limit (lexemes.length + 2)) lexemes hdeep
  rw [← hhigher]
  exact ofLexemes_of_derivation h (by omega)

/-- Lexemes derive at most one program. -/
theorem Derivation.unique {origin : Origin} {lexemes : List Lexeme} {program program' : List Stmt}
    (h : Derivation origin lexemes program) (h' : Derivation origin lexemes program') :
    program = program' := by
  have hread := ofLexemes_of_derivation h (Nat.lt_succ_self _)
  rw [ofLexemes_of_derivation h' (Nat.lt_succ_self _)] at hread
  exact (Except.ok.inj hread).symm

/-- **The parser recognises the grammar.** Unless the nesting is too deep, a program is read exactly
when the lexemes derive it; a limit above their number is never reached; they derive at most one
program; and lexemes that derive none are refused under every limit. -/
theorem ofLexemes_eq_ok_iff_derivation (origin : Origin) (lexemes : List Lexeme) :
    (∀ limit, ofLexemes origin limit lexemes ≠ .error .tooDeep → ∀ program,
      ofLexemes origin limit lexemes = .ok program ↔ Derivation origin lexemes program) ∧
    (∀ limit, lexemes.length + 1 < limit → ofLexemes origin limit lexemes ≠ .error .tooDeep) ∧
    (∀ program program', Derivation origin lexemes program →
      Derivation origin lexemes program' → program = program') ∧
    ((¬ ∃ program, Derivation origin lexemes program) →
      ∀ limit, ∃ fault, ofLexemes origin limit lexemes = .error fault) := by
  -- the grammar decides, the limit does not, one tree is read, and the rest is refused
  refine ⟨?_, ?_, ?_, ?_⟩
  · intro limit hdeep program
    exact ofLexemes_iff_of_ne_tooDeep hdeep program
  · intro limit hlimit
    exact ofLexemes_ne_tooDeep origin hlimit
  · intro program program' h h'
    exact h.unique h'
  · intro hnone limit
    cases hread : ofLexemes origin limit lexemes with
    | error fault => exact ⟨fault, rfl⟩
    | ok program => exact absurd ⟨program, derivation_of_ofLexemes lexemes hread⟩ hnone

end Program

end Scriptlet
