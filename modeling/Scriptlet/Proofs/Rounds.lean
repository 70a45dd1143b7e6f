import Scriptlet.Proofs.Recognition
import Scriptlet.Proofs.Walks

/-! # Rounds of the parsers

Every parser that returns stands on the last lexeme of what it read, which is not before the lexeme
it started on. The loops over operators and over rows of statements are made of rounds, each of them
a parser that starts where the one before it has ended; so every round comes further or fails, and
with it the loop.

* `StandsOnLast`: a parser passes what it reads, and stands on the last lexeme of that.
* `extension`, `item`: the rounds of the loops, and `climb_eq_of_not_stops`, `body_eq_of_next`,
  `statements_eq_of_next`: how the loops go on behind them.
* `parsing_moves_forward`: reading ends for all lexemes, and only ever moves forward. -/

namespace Scriptlet.Program

variable {α : Type}

/-- A parser that returns has passed what it has read, and stands on the last lexeme of it: there
is one, and it is the lexeme the parser started on or comes after it. -/
def StandsOnLast (parser : Parser α) (walker : Walker α) (Reads : List Lexeme → α → Prop) : Prop :=
  ∀ lexemes found rest, parser lexemes = .ok (found, rest) →
    ∃ before current, lexemes = before ++ current :: rest ∧
      (walker lexemes).passed = before ++ [current] ∧ Reads (before ++ [current]) found

/-- A parser that reads something stands on the last lexeme of it. -/
theorem standsOnLast_of_reads {parser : Parser α} {walker : Walker α}
    {Reads : List Lexeme → α → Prop}
    (hwalks : ∀ lexemes, WalksTo (parser lexemes) lexemes (walker lexemes))
    (hreads : ∀ lexemes found rest, parser lexemes = .ok (found, rest) →
      ∃ used, lexemes = used ++ rest ∧ used ≠ [] ∧ Reads used found) :
    StandsOnLast parser walker Reads := by
  intro lexemes found rest hfound
  obtain ⟨used, hused, hne, hread⟩ := hreads lexemes found rest hfound
  obtain ⟨ahead, hpassed, hahead⟩ := (hwalks lexemes).along
  rw [hfound] at hahead
  obtain rfl : ahead = rest := hahead
  -- what was passed and what was read are in front of the same rest
  have hsame : (walker lexemes).passed = used := List.append_cancel_right (hpassed.symm.trans hused)
  refine ⟨used.dropLast, used.getLast hne, ?_, ?_, ?_⟩
  · rw [hused, List.append_cons, List.dropLast_concat_getLast]
  · rw [hsame, List.dropLast_concat_getLast]
  · rw [List.dropLast_concat_getLast]
    exact hread

/-- An expression has a lexeme. -/
theorem ExprDerivation.ne_nil {origin : Origin} {rank : Nat} {lexemes : List Lexeme} {expr : Expr}
    (h : ExprDerivation origin rank lexemes expr) : lexemes ≠ [] := by
  obtain ⟨first, others, rfl, -⟩ := h.exists_first
  exact List.cons_ne_nil first others

/-- A statement has a lexeme. -/
theorem StmtDerivation.ne_nil {origin : Origin} {lexemes : List Lexeme} {next : Option Token}
    {stmt : Stmt} (h : StmtDerivation origin lexemes next stmt) : lexemes ≠ [] := by
  obtain ⟨first, others, rfl, -⟩ := h.exists_first
  exact List.cons_ne_nil first others

/-- A block has a lexeme. -/
theorem BlockDerivation.ne_nil {origin : Origin} {lexemes : List Lexeme} {stmt : Stmt}
    (h : BlockDerivation origin lexemes stmt) : lexemes ≠ [] := by
  cases h with
  | block _ _ _ => exact List.cons_ne_nil _ _

/-! ## The round of an expression -/

/-- Extends an expression by the operator in front and its right operand. -/
def extension (origin : Origin) (expression : Level → Parser Expr) (left : Expr) : Parser Expr
  | [] => .error (.incomplete .binaryOperator)
  | lexeme :: rest =>
    match lexeme.token with
    | .operator op =>
      if op.isBinary then
        (expression op.rightLevel rest).bind fun found =>
          .ok (.binary left op found.1 (origin.place lexeme), found.2)
      else .error (.unexpected .binaryOperator lexeme)
    | _ => .error (.unexpected .binaryOperator lexeme)

/-- Extends an expression, with the moves. -/
def Walk.extension (origin : Origin) (expression : Level → Walker Expr) (left : Expr) : Walker Expr
  | [] => stay (.error (.incomplete .binaryOperator))
  | lexeme :: rest =>
    match lexeme.token with
    | .operator op =>
      if op.isBinary then
        pass lexeme ((expression op.rightLevel rest).andThen fun right after =>
          stay (.ok (.binary left op right (origin.place lexeme), after)))
      else stay (.error (.unexpected .binaryOperator lexeme))
    | _ => stay (.error (.unexpected .binaryOperator lexeme))

/-- Lexemes that extend an expression: an operator and its right operand. -/
def Extends (origin : Origin) (left : Expr) (lexemes : List Lexeme) (expr : Expr) : Prop :=
  ∃ lexeme op inside right, lexemes = lexeme :: inside ∧ lexeme.token = .operator op ∧
    expr = .binary left op right (origin.place lexeme) ∧
    ExprDerivation origin (rankAbove op.rightLevel) inside right

section Expression

variable {origin : Origin} {expression : Level → Parser Expr}

/-- Where an expression is not complete, it is extended, and the loop goes on behind that. -/
theorem climb_eq_of_not_stops (hexpression : ∀ level, Consumes (expression level)) {floor : Level}
    {lexemes : List Lexeme} (h : ¬ Stops floor lexemes) (left : Expr) :
    climb origin expression floor left lexemes =
      andThen (extension origin expression left) (climb origin expression floor) lexemes := by
  obtain ⟨lexeme, op, rest, rfl, htoken, hfloor⟩ := exists_operator_of_not_stops h
  cases hbinary : op.isBinary with
  | false =>
    rw [climb_reject origin htoken hfloor hbinary, andThen_of_error]
    simp only [extension, htoken, hbinary, Bool.false_eq_true, if_false]
  | true =>
    rw [climb_operator origin hexpression htoken hfloor hbinary]
    simp only [andThen, extension, htoken, hbinary, if_true]
    cases expression op.rightLevel rest with
    | error fault => rfl
    | ok found => rfl

/-- The walk of a round of an expression answers as the round does. -/
theorem extension_walks {walker : Level → Walker Expr}
    (hexpression : ∀ level lexemes,
      WalksTo (expression level lexemes) lexemes (walker level lexemes))
    (left : Expr) (lexemes : List Lexeme) :
    WalksTo (extension origin expression left lexemes) lexemes
      (Walk.extension origin walker left lexemes) := by
  cases lexemes with
  | nil => exact .misses _
  | cons lexeme rest =>
    simp only [extension, Walk.extension]
    -- the walk takes the branch of the parser, and passes the operator
    cases lexeme.token with
    | operator op =>
      dsimp only
      split
      · exact .pass lexeme (.andThen (hexpression _ rest) fun _ _ _ => .returns _ _)
      · exact .refuses _ _ _
    | _ => exact .refuses _ _ _

/-- A round of an expression reads an operator and its right operand. -/
theorem extends_of_extension (hexpression : ReadsExpr origin expression) {left expr : Expr}
    {lexemes rest : List Lexeme} (h : extension origin expression left lexemes = .ok (expr, rest)) :
    ∃ used, lexemes = used ++ rest ∧ used ≠ [] ∧ Extends origin left used expr := by
  cases lexemes with
  | nil => cases h
  | cons lexeme others =>
    simp only [extension] at h
    split at h
    · rename_i op htoken
      split at h
      · obtain ⟨⟨right, after⟩, hright, hresult⟩ := bind_eq_ok h
        -- only a binary operator is taken up, and its right side was read
        obtain ⟨inside, rfl, hinside, -⟩ := hexpression _ _ _ _ hright
        cases hresult
        exact ⟨lexeme :: inside, rfl, List.cons_ne_nil _ _, lexeme, op, inside, right, rfl, htoken,
          rfl, hinside⟩
      · cases h
    · cases h

end Expression

/-! ## The round of a row -/

/-- Passes over a newline in front, or reads a statement. -/
def item (statement : Parser Stmt) (lexemes : List Lexeme) :
    Except ParseFault (List Stmt × List Lexeme) :=
  if nextToken lexemes = some .newline then .ok ([], lexemes.tail)
  else (statement lexemes).bind fun found => .ok ([found.1], found.2)

/-- Passes over a newline in front or reads a statement, with the moves. -/
def Walk.item (statement : Walker Stmt) : Walker (List Stmt)
  | [] => (statement []).andThen fun first after => stay (.ok ([first], after))
  | lexeme :: rest =>
    if lexeme.token = .newline then pass lexeme (stay (.ok ([], rest)))
    else (statement (lexeme :: rest)).andThen fun first after => stay (.ok ([first], after))

section Row

variable {statement : Parser Stmt} {lexeme : Lexeme}

/-- A newline in front is a round of its own. -/
theorem item_newline (htoken : lexeme.token = .newline) (rest : List Lexeme) :
    item statement (lexeme :: rest) = .ok ([], rest) := by
  rw [item, nextToken_cons, htoken, if_pos rfl]
  rfl

/-- Without a newline in front, a round reads one statement. -/
theorem item_statement (htoken : lexeme.token ≠ .newline) (rest : List Lexeme) :
    item statement (lexeme :: rest) =
      (statement (lexeme :: rest)).bind fun found => .ok ([found.1], found.2) := by
  rw [item, nextToken_cons, if_neg fun h => htoken (Option.some.inj h)]

/-- Where a program does not end, the loop over its statements takes an item and goes on. -/
theorem statements_cons (hstatement : Consumes statement) (lexeme : Lexeme) (rest : List Lexeme) :
    statements statement (lexeme :: rest) =
      (item statement (lexeme :: rest)).bind fun found =>
        (statements statement found.2).map (found.1 ++ ·) := by
  by_cases htoken : lexeme.token = .newline
  · rw [statements_newline htoken, item_newline htoken]
    dsimp only [Except.bind]
    cases statements statement rest with
    | error fault => rfl
    | ok row => rfl
  · rw [statements_statement hstatement htoken, item_statement htoken]
    cases statement (lexeme :: rest) with
    | error fault => rfl
    | ok found => rfl

/-- Where a block does not end, the loop over its statements takes an item and goes on. -/
theorem body_cons (hstatement : Consumes statement) (hclose : lexeme.token ≠ .closeBrace)
    (rest : List Lexeme) :
    body statement (lexeme :: rest) =
      (item statement (lexeme :: rest)).bind fun found =>
        (body statement found.2).map fun more => (found.1 ++ more.1, more.2) := by
  by_cases htoken : lexeme.token = .newline
  · rw [body_newline htoken, item_newline htoken]
    dsimp only [Except.bind]
    cases body statement rest with
    | error fault => rfl
    | ok more => rfl
  · rw [body_statement hstatement htoken hclose, item_statement htoken]
    cases hfirst : statement (lexeme :: rest) with
    | error fault => rw [andThen_of_error hfirst]; rfl
    | ok found => rw [andThen_of_ok hfirst]; rfl

/-- The walk of a round of a row answers as the round does. -/
theorem item_walks {walker : Walker Stmt}
    (hstatement : ∀ lexemes, WalksTo (statement lexemes) lexemes (walker lexemes))
    (lexemes : List Lexeme) :
    WalksTo (item statement lexemes) lexemes (Walk.item walker lexemes) := by
  cases lexemes with
  | nil => exact .andThen (hstatement []) fun _ _ _ => .returns _ _
  | cons lexeme rest =>
    rw [Walk.item]
    split
    · rename_i htoken
      rw [item_newline htoken]
      exact .pass lexeme (.returns _ _)
    · rename_i htoken
      rw [item_statement htoken]
      exact .andThen (hstatement _) fun _ _ _ => .returns _ _

/-- A round of a row reads a newline or a statement. -/
theorem rowDerivation_of_item {origin : Origin} (hstatement : ReadsStmt origin statement)
    {lexemes rest : List Lexeme} {row : List Stmt}
    (h : item statement lexemes = .ok (row, rest)) :
    ∃ used, lexemes = used ++ rest ∧ used ≠ [] ∧
      RowDerivation origin used (nextToken rest) row := by
  unfold item at h
  split at h
  · rename_i hnewline
    cases lexemes with
    | nil => cases hnewline
    | cons lexeme others =>
      cases h
      exact ⟨[lexeme], rfl, List.cons_ne_nil _ _, .newline (Option.some.inj hnewline) .nil⟩
  · obtain ⟨⟨first, after⟩, hfirst, hresult⟩ := bind_eq_ok h
    obtain ⟨used, hused, hstmt⟩ := hstatement _ _ _ hfirst
    -- a row of one statement is derived from what the statement is
    have hrow : RowDerivation origin (used ++ []) (nextToken after) [first] := .cons hstmt .nil
    rw [List.append_nil] at hrow
    cases hresult
    exact ⟨used, hused, hstmt.ne_nil, hrow⟩

end Row

/-! ## All parsers -/

/-- How the parsers move under a nesting limit. -/
structure MovesForward (origin : Origin) (limit : Nat) : Prop where
  /-- Reading an expression. -/
  expression (floor : Level) :
    StandsOnLast (expression origin limit floor) (Walk.expression origin limit floor)
      (ExprDerivation origin (rankAbove floor))
  /-- Reading an operand. -/
  operand :
    StandsOnLast (operand origin (Program.expression origin limit))
      (Walk.operand origin (Walk.expression origin limit)) (ExprDerivation origin 10)
  /-- Extending an expression. -/
  extension (left : Expr) :
    StandsOnLast (extension origin (Program.expression origin limit) left)
      (Walk.extension origin (Walk.expression origin limit) left) (Extends origin left)
  /-- Reading a statement. -/
  statement :
    StandsOnLast (statement origin limit) (Walk.statement origin limit)
      fun used stmt => ∃ next, StmtDerivation origin used next stmt
  /-- Reading a block. -/
  block (wanted : Expectation) :
    StandsOnLast (block origin wanted (Program.statement origin limit))
      (Walk.block origin wanted (Walk.statement origin limit)) (BlockDerivation origin)
  /-- Passing over a newline, or reading a statement of a row. -/
  item :
    StandsOnLast (item (Program.statement origin limit)) (Walk.item (Walk.statement origin limit))
      fun used row => ∃ next, RowDerivation origin used next row
  /-- The loop over operators returns where they stop the expression; elsewhere it extends the
  expression, and goes on where it then stands or fails with it. -/
  climb (floor : Level) (left : Expr) (lexemes : List Lexeme) :
    (Stops floor lexemes →
      climb origin (Program.expression origin limit) floor left lexemes = .ok (left, lexemes)) ∧
    (¬ Stops floor lexemes →
      climb origin (Program.expression origin limit) floor left lexemes =
        (Program.extension origin (Program.expression origin limit) left lexemes).bind fun found =>
          Program.climb origin (Program.expression origin limit) floor found.1 found.2)
  /-- The loop over the statements of a block returns at a brace and fails at the end; elsewhere it
  takes an item, and goes on where it then stands or fails with it. -/
  body :
    body (Program.statement origin limit) [] = .error (.incomplete .closeBlock) ∧
    ∀ lexeme rest,
      (lexeme.token = .closeBrace →
        body (Program.statement origin limit) (lexeme :: rest) = .ok ([], rest)) ∧
      (lexeme.token ≠ .closeBrace →
        body (Program.statement origin limit) (lexeme :: rest) =
          (Program.item (Program.statement origin limit) (lexeme :: rest)).bind fun found =>
            (Program.body (Program.statement origin limit) found.2).map fun more =>
              (found.1 ++ more.1, more.2))
  /-- The loop over the statements of a program returns at the end; elsewhere it takes an item, and
  goes on where it then stands or fails with it. -/
  statements :
    statements (Program.statement origin limit) [] = .ok [] ∧
    ∀ lexeme rest,
      statements (Program.statement origin limit) (lexeme :: rest) =
        (Program.item (Program.statement origin limit) (lexeme :: rest)).bind fun found =>
          (Program.statements (Program.statement origin limit) found.2).map (found.1 ++ ·)

/-- The parsers move forward, whatever they read. -/
theorem movesForward (origin : Origin) (limit : Nat) : MovesForward origin limit where
  -- what every parser reads is derived from lexemes, and nothing is derived from none
  expression floor := by
    refine standsOnLast_of_reads (expression_walks origin limit floor) fun lexemes expr rest h => ?_
    obtain ⟨used, hused, hexpr, -⟩ := expression_reads origin limit floor lexemes expr rest h
    exact ⟨used, hused, hexpr.ne_nil, hexpr⟩
  operand := by
    refine standsOnLast_of_reads (operand_walks (expression_walks origin limit) origin) ?_
    intro lexemes expr rest h
    obtain ⟨used, hused, hexpr⟩ := exprDerivation_of_operand (expression_reads origin limit) h
    exact ⟨used, hused, hexpr.ne_nil, hexpr⟩
  extension left :=
    standsOnLast_of_reads (extension_walks (expression_walks origin limit) left)
      fun _ _ _ h => extends_of_extension (expression_reads origin limit) h
  statement := by
    refine standsOnLast_of_reads (statement_walks origin limit) fun lexemes stmt rest h => ?_
    obtain ⟨used, hused, hstmt⟩ := statement_reads origin limit lexemes stmt rest h
    exact ⟨used, hused, hstmt.ne_nil, _, hstmt⟩
  block wanted := by
    refine standsOnLast_of_reads (block_walks (statement_walks origin limit) origin wanted) ?_
    intro lexemes stmt rest h
    obtain ⟨used, hused, hblock⟩ :=
      blockDerivation_of_block (statement_consumes origin limit) (statement_reads origin limit) h
    exact ⟨used, hused, hblock.ne_nil, hblock⟩
  item := by
    refine standsOnLast_of_reads (item_walks (statement_walks origin limit)) ?_
    intro lexemes row rest h
    obtain ⟨used, hused, hne, hrow⟩ := rowDerivation_of_item (statement_reads origin limit) h
    exact ⟨used, hused, hne, _, hrow⟩
  climb floor left lexemes :=
    ⟨climb_stop origin, fun h => climb_eq_of_not_stops (expression_consumes origin limit) h left⟩
  body :=
    ⟨body_nil, fun _ rest => ⟨body_close, fun hclose =>
      body_cons (statement_consumes origin limit) hclose rest⟩⟩
  statements :=
    ⟨statements_nil, fun lexeme rest =>
      statements_cons (statement_consumes origin limit) lexeme rest⟩

/-- **Reading moves forward.** For every list of lexemes there is one answer that is given under all
limits above their number, and it is not that they are nested too deeply. Under any limit, every
parser stands on the last lexeme of what it has read, the loops are made of rounds that do so or
fail, and reading the whole list is a walk along it: every lexeme is passed once at most, in order,
up to the one that is refused, and all of them if none is. -/
theorem parsing_moves_forward (origin : Origin) (lexemes : List Lexeme) :
    (∃ answer, answer ≠ .error .tooDeep ∧
      ∀ limit, lexemes.length + 1 < limit → ofLexemes origin limit lexemes = answer) ∧
    ∀ limit, MovesForward origin limit ∧
      WalksTo ((ofLexemes origin limit lexemes).map fun program => (program, [])) lexemes
        (Walk.ofLexemes origin limit lexemes) := by
  have hdeep := ofLexemes_ne_tooDeep origin (Nat.lt_succ_self (lexemes.length + 1))
  refine ⟨⟨_, hdeep, fun limit hlimit => ofLexemes_settles origin hlimit lexemes hdeep⟩, ?_⟩
  exact fun limit => ⟨movesForward origin limit, ofLexemes_walks origin limit lexemes⟩

end Scriptlet.Program
