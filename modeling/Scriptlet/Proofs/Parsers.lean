import Scriptlet.Program.Progress
import Scriptlet.Proofs.Grammar

/-! # The steps of the parsers

The loops over rows of operands and statements check that lexemes were used up before they go on.
Every parser does use up lexemes, so the checks can be left out: the lemmas here say what one step
of each loop does, and later proofs cite them instead of the loops themselves. -/

namespace Scriptlet.Program

variable {α β : Type}

/-- One parser behind another, which may depend on what the first one read. -/
def andThen (first : Parser α) (next : α → Parser β) : Parser β :=
  fun lexemes => (first lexemes).bind fun found => next found.1 found.2

/-! ## Expressions -/

/-- No operator that binds more tightly than a level stands in front. -/
def Stops (floor : Level) (lexemes : List Lexeme) : Prop :=
  ∀ op, nextToken lexemes = some (.operator op) → op.level.rank ≤ floor.rank

/-- At the end nothing binds more tightly. -/
theorem stops_nil (floor : Level) : Stops floor [] := nofun

/-- What is not an operator stops every expression. -/
theorem stops_of_ne_operator {floor : Level} {lexemes : List Lexeme}
    (h : ∀ op, nextToken lexemes ≠ some (.operator op)) : Stops floor lexemes :=
  fun op hop => absurd hop (h op)

/-- What does not stop an expression is an operator that binds more tightly than the level. -/
theorem exists_operator_of_not_stops {floor : Level} {lexemes : List Lexeme}
    (h : ¬ Stops floor lexemes) :
    ∃ lexeme op rest, lexemes = lexeme :: rest ∧ lexeme.token = .operator op ∧
      floor.rank < op.level.rank := by
  simp only [Stops, Classical.not_forall, Nat.not_le] at h
  obtain ⟨op, hnext, hfloor⟩ := h
  cases lexemes with
  | nil => cases hnext
  | cons lexeme rest => exact ⟨lexeme, op, rest, rfl, Option.some.inj hnext, hfloor⟩

section Climb

variable (origin : Origin) {expression : Level → Parser Expr} {floor : Level} {left : Expr}
  {lexeme : Lexeme} {op : Operator} {rest lexemes : List Lexeme}

/-- An expression is complete where no operator in front extends it. -/
theorem climb_stop (h : Stops floor lexemes) :
    climb origin expression floor left lexemes = .ok (left, lexemes) := by
  rw [climb.eq_def]
  cases lexemes with
  | nil => rfl
  | cons lexeme rest =>
    dsimp only
    split
    · rename_i op hop
      have hrank := h op (by rw [nextToken_cons, hop])
      rw [if_neg (by omega)]
    · rfl

/-- An operator that extends an expression, but cannot stand between operands, is refused. -/
theorem climb_reject (htoken : lexeme.token = .operator op) (hfloor : floor.rank < op.level.rank)
    (hbinary : op.isBinary = false) :
    climb origin expression floor left (lexeme :: rest) =
      .error (.unexpected .binaryOperator lexeme) := by
  rw [climb.eq_def]
  simp only [htoken, if_pos hfloor, hbinary, Bool.false_eq_true, if_false]

/-- An operator that extends an expression takes its right operand and goes on. -/
theorem climb_operator (hexpression : ∀ level, Consumes (expression level))
    (htoken : lexeme.token = .operator op) (hfloor : floor.rank < op.level.rank)
    (hbinary : op.isBinary = true) :
    climb origin expression floor left (lexeme :: rest) =
      andThen (expression op.rightLevel)
        (fun right => climb origin expression floor (.binary left op right (origin.place lexeme)))
        rest := by
  rw [climb.eq_def, andThen]
  simp only [htoken, if_pos hfloor, hbinary, if_true]
  cases hright : expression op.rightLevel rest with
  | error fault => rfl
  | ok found =>
    -- the check of the loop for progress succeeds
    have hlt := hexpression _ _ _ _ hright
    show (if found.2.length < rest.length then _ else _) = _
    rw [if_pos hlt]
    rfl

/-- Induction along the loop over operators: an expression is complete, or the operator in front is
refused, or it is taken with its right operand and the loop goes on behind it. -/
theorem climb_induction {motive : Expr → List Lexeme → Prop}
    (hexpression : ∀ level, Consumes (expression level)) (floor : Level)
    (stop : ∀ left lexemes, Stops floor lexemes → motive left lexemes)
    (reject : ∀ left lexeme op rest, lexeme.token = .operator op →
      floor.rank < op.level.rank → op.isBinary = false → motive left (lexeme :: rest))
    (extend : ∀ left lexeme op rest, lexeme.token = .operator op →
      floor.rank < op.level.rank → op.isBinary = true →
      (∀ right after, expression op.rightLevel rest = .ok (right, after) →
        motive (.binary left op right (origin.place lexeme)) after) →
      motive left (lexeme :: rest))
    (left : Expr) (lexemes : List Lexeme) : motive left lexemes := by
  -- on the number of lexemes, since the right operand takes an unknown number of them
  induction hsize : lexemes.length using Nat.strongRecOn generalizing left lexemes with
  | ind size ih =>
    by_cases hstops : Stops floor lexemes
    · exact stop left lexemes hstops
    · obtain ⟨lexeme, op, rest, rfl, htoken, hfloor⟩ := exists_operator_of_not_stops hstops
      cases hbinary : op.isBinary with
      | false => exact reject left lexeme op rest htoken hfloor hbinary
      | true =>
        refine extend left lexeme op rest htoken hfloor hbinary fun right after hright => ?_
        have hlt := hexpression _ _ _ _ hright
        exact ih after.length (by simp only [List.length_cons] at hsize; omega) _ _ rfl

end Climb

/-! ## Rows of statements -/

section Row

variable {statement : Parser Stmt} {lexeme : Lexeme} {rest : List Lexeme}

/-- A block that is not closed is incomplete. -/
@[simp] theorem body_nil : body statement [] = .error (.incomplete .closeBlock) := by
  rw [body.eq_def]

/-- A newline in a block is passed over. -/
theorem body_newline (htoken : lexeme.token = .newline) :
    body statement (lexeme :: rest) = body statement rest := by
  rw [body.eq_def]
  exact if_pos htoken

/-- A closing brace ends a block. -/
theorem body_close (htoken : lexeme.token = .closeBrace) :
    body statement (lexeme :: rest) = .ok ([], rest) := by
  rw [body.eq_def]
  simp [htoken]

/-- Anything else in a block begins a statement, and the block goes on behind it. -/
theorem body_statement (hstatement : Consumes statement) (hnewline : lexeme.token ≠ .newline)
    (hclose : lexeme.token ≠ .closeBrace) :
    body statement (lexeme :: rest) =
      andThen statement (fun first lexemes =>
        (body statement lexemes).bind fun others => .ok (first :: others.1, others.2))
        (lexeme :: rest) := by
  rw [body.eq_def, andThen]
  simp only [if_neg hnewline, if_neg hclose]
  cases hfirst : statement (lexeme :: rest) with
  | error fault => rfl
  | ok found =>
    have hlt := hstatement _ _ _ hfirst
    show (if found.2.length < (lexeme :: rest).length then _ else _) = _
    rw [if_pos hlt]
    rfl

/-- At the end there are no more statements. -/
@[simp] theorem statements_nil : statements statement [] = .ok [] := by
  rw [statements.eq_def]

/-- A newline between statements is passed over. -/
theorem statements_newline (htoken : lexeme.token = .newline) :
    statements statement (lexeme :: rest) = statements statement rest := by
  rw [statements.eq_def]
  exact if_pos htoken

/-- Anything else begins a statement, and the program goes on behind it. -/
theorem statements_statement (hstatement : Consumes statement)
    (hnewline : lexeme.token ≠ .newline) :
    statements statement (lexeme :: rest) =
      (statement (lexeme :: rest)).bind fun found =>
        (statements statement found.2).bind fun others => .ok (found.1 :: others) := by
  rw [statements.eq_def]
  simp only [if_neg hnewline]
  cases hfirst : statement (lexeme :: rest) with
  | error fault => rfl
  | ok found =>
    have hlt := hstatement _ _ _ hfirst
    show (if found.2.length < (lexeme :: rest).length then _ else _) = _
    rw [if_pos hlt]
    rfl

/-- Induction along a row of statements. -/
theorem row_induction {motive : List Lexeme → Prop} (hstatement : Consumes statement)
    (nil : motive [])
    (newline : ∀ lexeme rest, lexeme.token = .newline → motive rest → motive (lexeme :: rest))
    (step : ∀ lexeme rest, lexeme.token ≠ .newline →
      (∀ first after, statement (lexeme :: rest) = .ok (first, after) → motive after) →
      motive (lexeme :: rest))
    (lexemes : List Lexeme) : motive lexemes := by
  -- on the length, since a statement uses up lexemes and not just one
  induction hsize : lexemes.length using Nat.strongRecOn generalizing lexemes with
  | ind size ih =>
    cases lexemes with
    | nil => exact nil
    | cons lexeme rest =>
      have hrest : rest.length < size := by rw [← hsize]; exact Nat.lt_succ_self _
      by_cases hnewline : lexeme.token = .newline
      · exact newline lexeme rest hnewline (ih rest.length hrest rest rfl)
      · refine step lexeme rest hnewline fun first after hfirst => ?_
        have hlt := hstatement _ _ _ hfirst
        exact ih after.length (by omega) after rfl

end Row

/-! ## Statements -/

/-- Nothing follows, or one of some tokens. -/
def EndsBy (tokens : List Token) (rest : List Lexeme) : Prop :=
  nextToken rest = none ∨ ∃ token ∈ tokens, nextToken rest = some token

/-- Demanding an end succeeds exactly where there is one. -/
theorem ends_eq_ok_iff {wanted : Expectation} {tokens : List Token} {rest : List Lexeme} :
    ends wanted tokens rest = .ok () ↔ EndsBy tokens rest := by
  cases rest with
  | nil => exact ⟨fun _ => .inl rfl, fun _ => rfl⟩
  | cons lexeme others =>
    simp only [ends, EndsBy, nextToken_cons, reduceCtorEq, false_or, Option.some.injEq,
      exists_eq_right']
    by_cases hmem : lexeme.token ∈ tokens
    · rw [if_pos hmem]
      exact ⟨fun _ => hmem, fun _ => rfl⟩
    · rw [if_neg hmem]
      exact ⟨fun h => (by cases h), fun h => absurd h hmem⟩

/-- An expression that has to be followed by the end or by one of some tokens, as a statement. -/
def terminated (expression : Parser Expr) (wanted : Token → Expectation) (tokens : List Token)
    (before : Lexeme) (build : Expr → Stmt) : Parser Stmt := fun lexemes =>
  (expression lexemes).bind fun found =>
    (ends (wanted (lastUsed lexemes found.2 before)) tokens found.2).bind fun _ =>
      .ok (build found.1, found.2)

section Terminated

variable {expression : Parser Expr} {wanted : Token → Expectation} {tokens : List Token}
  {before : Lexeme} {build : Expr → Stmt} {lexemes rest : List Lexeme}

/-- A fault in its expression is the fault of a statement. -/
theorem terminated_of_error {fault : ParseFault} (h : expression lexemes = .error fault) :
    terminated expression wanted tokens before build lexemes = .error fault := by
  rw [terminated, h]
  rfl

/-- An expression with an end behind it is read as a statement. -/
theorem terminated_of_ok {expr : Expr} (h : expression lexemes = .ok (expr, rest))
    (hends : EndsBy tokens rest) :
    terminated expression wanted tokens before build lexemes = .ok (build expr, rest) := by
  rw [terminated, h]
  show (ends _ tokens rest).bind _ = _
  rw [ends_eq_ok_iff.mpr hends]
  rfl

/-- What was read as a statement is an expression with an end behind it. -/
theorem exists_of_terminated {stmt : Stmt}
    (h : terminated expression wanted tokens before build lexemes = .ok (stmt, rest)) :
    ∃ expr, expression lexemes = .ok (expr, rest) ∧ EndsBy tokens rest ∧ stmt = build expr := by
  obtain ⟨⟨expr, after⟩, hexpr, hends⟩ := bind_eq_ok h
  obtain ⟨⟨⟩, hend, hresult⟩ := bind_eq_ok hends
  cases hresult
  exact ⟨expr, hexpr, ends_eq_ok_iff.mp hend, rfl⟩

end Terminated

/-- Whether a token is a reserved word that decides the form of a statement. -/
def isStatementWord : Token → Bool
  | .keyword .print | .keyword .ret | .keyword .cond | .keyword .loop | .keyword .function => true
  | _ => false

section Statement

variable {origin : Origin} {limit : Nat} {lexeme : Lexeme} (rest : List Lexeme)

/-- Behind the word for printing stands an expression, up to a newline or a closing brace. -/
theorem statement_print (htoken : lexeme.token = .keyword .print) :
    statement origin (limit + 1) (lexeme :: rest) =
      terminated (expression origin limit .lowest) .endOfPrint [.newline, .closeBrace] lexeme
        (.print · (origin.place lexeme)) rest := by
  simp only [statement, htoken]
  rfl

/-- Behind the word for returning stands an expression, up to a newline. -/
theorem statement_ret (htoken : lexeme.token = .keyword .ret) :
    statement origin (limit + 1) (lexeme :: rest) =
      terminated (expression origin limit .lowest) .endOfReturn [.newline] lexeme
        (.ret · (origin.place lexeme)) rest := by
  simp only [statement, htoken]
  rfl

/-- Behind the word for a condition stands a conditional statement. -/
theorem statement_cond (htoken : lexeme.token = .keyword .cond) :
    statement origin (limit + 1) (lexeme :: rest) =
      conditional origin (origin.place lexeme) (expression origin limit) (statement origin limit)
        rest := by
  simp only [statement, htoken]

/-- The words for loops and functions are not supported. -/
theorem statement_unsupported
    (htoken : lexeme.token = .keyword .loop ∨ lexeme.token = .keyword .function) :
    statement origin (limit + 1) (lexeme :: rest) = .error (.unsupported lexeme) := by
  rcases htoken with htoken | htoken <;> simp only [statement, htoken]

/-- A statement that begins with no word of its own is an expression. -/
theorem statement_expression (h : isStatementWord lexeme.token = false) :
    statement origin (limit + 1) (lexeme :: rest) =
      andThen (expression origin limit .lowest)
        (fun expr after => .ok (.expression expr (origin.place lexeme), after)) (lexeme :: rest) := by
  simp only [statement]
  split
  · rename_i htoken; rw [htoken] at h; cases h
  · rename_i htoken; rw [htoken] at h; cases h
  · rename_i htoken; rw [htoken] at h; cases h
  · rename_i htoken; rw [htoken] at h; cases h
  · rename_i htoken; rw [htoken] at h; cases h
  · rfl

end Statement

/-- The forms of a statement, by the token it begins with. -/
theorem statement_forms (token : Token) :
    token = .keyword .print ∨ token = .keyword .ret ∨ token = .keyword .cond ∨
      (token = .keyword .loop ∨ token = .keyword .function) ∨ isStatementWord token = false := by
  unfold isStatementWord
  split <;> simp

end Scriptlet.Program
