import Scriptlet.Proofs.ViablePrefix

/-! # Walks along lexemes

The parsers with their moves noted. A move passes the lexeme in front; there is no other way to
come to the lexemes behind it, and no way back. A walk ends with the answer of the parser, and what
lies ahead then is what the parser returns, or the lexeme that it refuses, or nothing where it
misses one.

* `Walk`: the lexemes passed, in order, and the answer.
* `WalksTo`: a walk passes the first lexemes of a list and comes to an answer; kept by `Walk.pass`
  and `Walk.andThen`.
* `ofLexemes_walks`: reading a program is a walk along its lexemes, with the parser's answer. -/

namespace Scriptlet.Program

variable {α β : Type}

/-! ## Walks -/

/-- What a parser does at a list of lexemes. -/
structure Walk (α : Type) where
  /-- The lexemes it passes, in order. -/
  passed : List Lexeme
  /-- What it answers. -/
  answer : Except ParseFault (α × List Lexeme)

/-- A parser with its moves. -/
abbrev Walker (α : Type) : Type :=
  List Lexeme → Walk α

namespace Walk

/-- Answers without a move. -/
def stay (answer : Except ParseFault (α × List Lexeme)) : Walk α :=
  ⟨[], answer⟩

/-- Passes a lexeme first. -/
def pass (lexeme : Lexeme) (walk : Walk α) : Walk α :=
  ⟨lexeme :: walk.passed, walk.answer⟩

/-- Goes on with another walk from where a walk returns. -/
def andThen (walk : Walk α) (next : α → Walker β) : Walk β :=
  match walk.answer with
  | .error fault => ⟨walk.passed, .error fault⟩
  | .ok (found, rest) => ⟨walk.passed ++ (next found rest).passed, (next found rest).answer⟩

/-- Demands a token at the front, and passes it. -/
def expect (wanted : Expectation) (token : Token) : Walker Lexeme
  | [] => stay (.error (.incomplete wanted))
  | lexeme :: rest =>
    if lexeme.token = token then pass lexeme (stay (.ok (lexeme, rest)))
    else stay (.error (.unexpected wanted lexeme))

/-- Reads an operand. -/
def operand (origin : Origin) (expression : Level → Walker Expr) : Walker Expr
  | [] => stay (.error (.incomplete .expression))
  | lexeme :: rest =>
    match lexeme.token with
    | .name spelling => pass lexeme (stay (.ok (.name spelling (origin.place lexeme), rest)))
    | .number value => pass lexeme (stay (.ok (.number value (origin.place lexeme), rest)))
    | .text content =>
      pass lexeme (stay (.ok (.string (origin.literal content lexeme) (origin.place lexeme), rest)))
    | .operator op =>
      if op.isUnary then
        pass lexeme ((expression .unary rest).andThen fun inner after =>
          stay (.ok (.unary op inner (origin.place lexeme), after)))
      else stay (.error (.unexpected .expression lexeme))
    | .keyword .typeOf =>
      pass lexeme ((expression .unary rest).andThen fun inner after =>
        stay (.ok (.typeOf inner (origin.place lexeme), after)))
    | .openParen =>
      pass lexeme ((expression .lowest rest).andThen fun inner after =>
        (expect .closeGroup .closeParen after).andThen fun _ behind => stay (.ok (inner, behind)))
    | _ => stay (.error (.unexpected .expression lexeme))

/-- Extends an expression to the right. -/
def climb (origin : Origin) (expression : Level → Walker Expr) (floor : Level) (left : Expr)
    (lexemes : List Lexeme) : Walk Expr :=
  match lexemes with
  | [] => stay (.ok (left, []))
  | lexeme :: rest =>
    match lexeme.token with
    | .operator op =>
      if floor.rank < op.level.rank then
        if op.isBinary then
          pass lexeme ((expression op.rightLevel rest).andThen fun right after =>
            if after.length < rest.length then
              climb origin expression floor (.binary left op right (origin.place lexeme)) after
            else stay (.error .tooDeep))   -- unreachable, as for the parser
        else stay (.error (.unexpected .binaryOperator lexeme))
      else stay (.ok (left, lexeme :: rest))
    | _ => stay (.ok (left, lexeme :: rest))
termination_by lexemes.length
decreasing_by simp only [List.length_cons]; omega

/-- Reads an expression. -/
def expression (origin : Origin) : Nat → Level → Walker Expr
  | 0, _ => fun _ => stay (.error .tooDeep)
  | limit + 1, floor => fun lexemes =>
    (operand origin (expression origin limit) lexemes).andThen
      (climb origin (expression origin limit) floor)

/-- Reads statements up to the closing of their block. -/
def body (statement : Walker Stmt) (lexemes : List Lexeme) : Walk (List Stmt) :=
  match lexemes with
  | [] => stay (.error (.incomplete .closeBlock))
  | lexeme :: rest =>
    if lexeme.token = .newline then pass lexeme (body statement rest)
    else if lexeme.token = .closeBrace then pass lexeme (stay (.ok ([], rest)))
    else
      (statement (lexeme :: rest)).andThen fun first after =>
        if after.length < (lexeme :: rest).length then
          (body statement after).andThen fun others behind => stay (.ok (first :: others, behind))
        else stay (.error .tooDeep)   -- unreachable, as for the parser
termination_by lexemes.length
decreasing_by
  · simp
  · assumption

/-- Reads a block. -/
def block (origin : Origin) (wanted : Expectation) (statement : Walker Stmt) : Walker Stmt :=
  fun lexemes =>
    (expect wanted .openBrace lexemes).andThen fun opening inside =>
      (body statement inside).andThen fun statements behind =>
        stay (.ok (.block statements (origin.place opening), behind))

/-- Reads a conditional statement behind its reserved word. -/
def conditional (origin : Origin) (place : Option Position) (expression : Level → Walker Expr)
    (statement : Walker Stmt) : Walker Stmt :=
  fun lexemes =>
    (expression .lowest lexemes).andThen fun condition rest =>
      (block origin .bodyOfCondition statement rest).andThen fun body behind =>
        match behind with
        | [] => stay (.ok (.cond condition body place, []))
        | lexeme :: after =>
          if lexeme.token = .keyword .otherwise then
            pass lexeme ((block origin .bodyOfAlternative statement after).andThen fun other rest =>
              stay (.ok (.condElse condition body other place, rest)))
          else stay (.ok (.cond condition body place, lexeme :: after))

/-- Reads an expression that has to be followed by an end. -/
def terminated (expression : Walker Expr) (wanted : Token → Expectation) (tokens : List Token)
    (before : Lexeme) (build : Expr → Stmt) : Walker Stmt :=
  fun lexemes =>
    (expression lexemes).andThen fun expr rest =>
      stay ((ends (wanted (lastUsed lexemes rest before)) tokens rest).bind fun _ =>
        .ok (build expr, rest))

/-- Reads a statement. -/
def statement (origin : Origin) : Nat → Walker Stmt
  | 0 => fun _ => stay (.error .tooDeep)
  | limit + 1 => fun lexemes =>
    match lexemes with
    | [] => stay (.error (.incomplete .expression))
    | lexeme :: rest =>
      match lexeme.token with
      | .keyword .print =>
        pass lexeme (terminated (expression origin limit .lowest) .endOfPrint
          [.newline, .closeBrace] lexeme (.print · (origin.place lexeme)) rest)
      | .keyword .ret =>
        pass lexeme (terminated (expression origin limit .lowest) .endOfReturn [.newline] lexeme
          (.ret · (origin.place lexeme)) rest)
      | .keyword .cond =>
        pass lexeme (conditional origin (origin.place lexeme) (expression origin limit)
          (statement origin limit) rest)
      | .keyword .loop | .keyword .function => stay (.error (.unsupported lexeme))
      | _ =>
        (expression origin limit .lowest (lexeme :: rest)).andThen fun expr after =>
          stay (.ok (.expression expr (origin.place lexeme), after))

/-- Reads statements up to the end. -/
def statements (statement : Walker Stmt) (lexemes : List Lexeme) : Walk (List Stmt) :=
  match lexemes with
  | [] => stay (.ok ([], []))
  | lexeme :: rest =>
    if lexeme.token = .newline then pass lexeme (statements statement rest)
    else
      (statement (lexeme :: rest)).andThen fun first after =>
        if after.length < (lexeme :: rest).length then
          (statements statement after).andThen fun others behind =>
            stay (.ok (first :: others, behind))
        else stay (.error .tooDeep)   -- unreachable, as for the parser
termination_by lexemes.length
decreasing_by
  · simp
  · assumption

/-- Reads a whole program. -/
def ofLexemes (origin : Origin) (limit : Nat) : Walker (List Stmt) :=
  statements (statement origin limit)

end Walk

/-! ## Walks that come to an answer -/

/-- What may lie ahead of a parser that has come to an answer: what it returns, or the lexeme that
it refuses and what follows that, or nothing if it misses a lexeme. -/
def LiesAhead (ahead : List Lexeme) : Except ParseFault (α × List Lexeme) → Prop
  | .ok (_, rest) => ahead = rest
  | .error (.unexpected _ found) | .error (.unsupported found) => ahead.head? = some found
  | .error (.incomplete _) => ahead = []
  | .error .tooDeep => True

/-- What lies ahead of a parser that has failed does not depend on what it was to read. -/
theorem LiesAhead.of_error {ahead : List Lexeme} {fault : ParseFault}
    (h : LiesAhead (α := α) ahead (.error fault)) : LiesAhead (α := β) ahead (.error fault) := by
  cases fault <;> exact h

/-- A walk passes the first lexemes of a list, each once and in order, and comes to an answer; the
rest of the lexemes lies ahead. -/
structure WalksTo (answer : Except ParseFault (α × List Lexeme)) (lexemes : List Lexeme)
    (walk : Walk α) : Prop where
  /-- The answer of the walk. -/
  answer_eq : walk.answer = answer
  /-- What was passed and what lies ahead are all the lexemes. -/
  along : ∃ ahead, lexemes = walk.passed ++ ahead ∧ LiesAhead ahead answer

namespace WalksTo

/-- A walk without a move. -/
theorem stay {answer : Except ParseFault (α × List Lexeme)} {lexemes : List Lexeme}
    (h : LiesAhead lexemes answer) : WalksTo answer lexemes (.stay answer) :=
  ⟨rfl, lexemes, rfl, h⟩

/-- To return without a move leaves all lexemes ahead. -/
theorem returns (found : α) (rest : List Lexeme) :
    WalksTo (.ok (found, rest)) rest (.stay (.ok (found, rest))) :=
  .stay rfl

/-- To refuse a lexeme leaves it in front of those ahead. -/
theorem refuses (wanted : Expectation) (lexeme : Lexeme) (rest : List Lexeme) :
    WalksTo (α := α) (.error (.unexpected wanted lexeme)) (lexeme :: rest)
      (.stay (.error (.unexpected wanted lexeme))) :=
  .stay rfl

/-- At the end nothing lies ahead. -/
theorem misses (wanted : Expectation) :
    WalksTo (α := α) (.error (.incomplete wanted)) [] (.stay (.error (.incomplete wanted))) :=
  .stay rfl

/-- Nesting too deeply moves nowhere. -/
theorem tooDeep (lexemes : List Lexeme) :
    WalksTo (α := α) (.error .tooDeep) lexemes (.stay (.error .tooDeep)) :=
  .stay trivial

/-- To pass a lexeme first is a walk of the longer list. -/
theorem pass {answer : Except ParseFault (α × List Lexeme)} {lexemes : List Lexeme}
    {walk : Walk α} (lexeme : Lexeme) (h : WalksTo answer lexemes walk) :
    WalksTo answer (lexeme :: lexemes) (walk.pass lexeme) := by
  obtain ⟨ahead, hpassed, hahead⟩ := h.along
  exact ⟨h.answer_eq, ahead, congrArg (lexeme :: ·) hpassed, hahead⟩

/-- A walk goes on from where another one returns. -/
theorem andThen {answer : Except ParseFault (α × List Lexeme)} {lexemes : List Lexeme}
    {walk : Walk α} {next : α × List Lexeme → Except ParseFault (β × List Lexeme)}
    {next' : α → Walker β} (h : WalksTo answer lexemes walk)
    (hnext : ∀ found rest, answer = .ok (found, rest) →
      WalksTo (next (found, rest)) rest (next' found rest)) :
    WalksTo (answer.bind next) lexemes (walk.andThen next') := by
  obtain ⟨hanswer, ahead, hpassed, hahead⟩ := h
  cases answer with
  | error fault =>
    rw [Walk.andThen, hanswer]
    exact ⟨rfl, ahead, hpassed, hahead.of_error⟩
  | ok result =>
    -- the second walk begins at what lies ahead of the first
    obtain ⟨found, rest⟩ := result
    obtain rfl : ahead = rest := hahead
    obtain ⟨hanswer', ahead', hpassed', hahead'⟩ := hnext found ahead rfl
    rw [Walk.andThen, hanswer]
    refine ⟨hanswer', ahead', ?_, hahead'⟩
    dsimp only
    rw [List.append_assoc, ← hpassed', hpassed]

end WalksTo

/-! ## The parsers walk -/

/-- To expect a token is a walk. -/
theorem expect_walks (wanted : Expectation) (token : Token) (lexemes : List Lexeme) :
    WalksTo (expect wanted token lexemes) lexemes (Walk.expect wanted token lexemes) := by
  cases lexemes with
  | nil => exact .misses _
  | cons lexeme rest =>
    simp only [expect, Walk.expect]
    split
    · exact .pass lexeme (.returns _ _)
    · exact .refuses _ _ _

/-- An end is looked at and not passed. -/
theorem ends_walks (wanted : Expectation) (tokens : List Token) (found : α) (rest : List Lexeme) :
    WalksTo ((ends wanted tokens rest).bind fun _ => .ok (found, rest)) rest
      (.stay ((ends wanted tokens rest).bind fun _ => .ok (found, rest))) := by
  apply WalksTo.stay
  cases rest with
  | nil => exact rfl
  | cons lexeme others =>
    simp only [ends]
    split
    · exact rfl
    · exact rfl

section Expression

variable {expression : Level → Parser Expr} {walker : Level → Walker Expr}
  (hexpression : ∀ level lexemes, WalksTo (expression level lexemes) lexemes (walker level lexemes))

include hexpression

/-- To read an operand is a walk if reading expressions is. -/
theorem operand_walks (origin : Origin) (lexemes : List Lexeme) :
    WalksTo (operand origin expression lexemes) lexemes (Walk.operand origin walker lexemes) := by
  cases lexemes with
  | nil => exact .misses _
  | cons lexeme rest =>
    simp only [operand, Walk.operand]
    cases lexeme.token with
    | name spelling => exact .pass lexeme (.returns _ _)
    | number value => exact .pass lexeme (.returns _ _)
    | text content => exact .pass lexeme (.returns _ _)
    | operator op =>
      dsimp only
      split
      · exact .pass lexeme (.andThen (hexpression _ rest) fun _ _ _ => .returns _ _)
      · exact .refuses _ _ _
    | keyword word =>
      cases word with
      | typeOf => exact .pass lexeme (.andThen (hexpression _ rest) fun _ _ _ => .returns _ _)
      | _ => exact .refuses _ _ _
    | openParen =>
      -- the closing parenthesis is passed behind whatever the expression has passed
      refine .pass lexeme (.andThen (hexpression _ rest) fun inner after _ => ?_)
      exact .andThen (expect_walks _ _ after) fun _ _ _ => .returns _ _
    | _ => exact .refuses _ _ _

/-- To read the operators behind an operand is a walk if reading expressions is. -/
theorem climb_walks (origin : Origin) (floor : Level) (left : Expr) (lexemes : List Lexeme) :
    WalksTo (climb origin expression floor left lexemes) lexemes
      (Walk.climb origin walker floor left lexemes) := by
  -- on the number of lexemes, since the right operand takes an unknown number of them
  induction hsize : lexemes.length using Nat.strongRecOn generalizing left lexemes with
  | ind size ih =>
    rw [climb.eq_def, Walk.climb.eq_def]
    cases lexemes with
    | nil => exact .returns _ _
    | cons lexeme rest =>
      dsimp only
      cases lexeme.token with
      | operator op =>
        dsimp only
        split
        · split
          · refine .pass lexeme (.andThen (hexpression _ rest) fun right after _ => ?_)
            dsimp only
            split
            · rw [List.length_cons] at hsize
              exact ih after.length (by omega) _ after rfl
            · exact .tooDeep _
          · exact .refuses _ _ _
        · exact .returns _ _
      | _ => exact .returns _ _

end Expression

/-- Reading an expression is a walk. -/
theorem expression_walks (origin : Origin) (limit : Nat) (floor : Level) (lexemes : List Lexeme) :
    WalksTo (expression origin limit floor lexemes) lexemes
      (Walk.expression origin limit floor lexemes) := by
  induction limit generalizing floor lexemes with
  | zero => exact .tooDeep _
  | succ limit ih =>
    exact .andThen (operand_walks ih origin lexemes) fun left after _ =>
      climb_walks ih origin floor left after

/-- Nothing lies ahead of a program that is read; behind its first statement it is read on. -/
theorem map_statements {statement : Parser Stmt} (hconsumes : Consumes statement) {lexeme : Lexeme}
    {rest : List Lexeme} (hnewline : lexeme.token ≠ .newline) :
    (statements statement (lexeme :: rest)).map (fun program => (program, ([] : List Lexeme))) =
      (statement (lexeme :: rest)).bind fun found =>
        ((statements statement found.2).map fun program => (program, [])).bind fun others =>
          .ok (found.1 :: others.1, others.2) := by
  -- both sides fail on the first statement, or on one of the others, or on none
  rw [statements_statement hconsumes hnewline]
  cases statement (lexeme :: rest) with
  | error fault => rfl
  | ok found =>
    dsimp only [Except.bind]
    cases statements statement found.2 with
    | error fault => rfl
    | ok others => rfl

section Statement

variable {statement : Parser Stmt} {walker : Walker Stmt}
  (hstatement : ∀ lexemes, WalksTo (statement lexemes) lexemes (walker lexemes))

include hstatement

/-- To read the inside of a block is a walk if reading statements is. -/
theorem body_walks (lexemes : List Lexeme) :
    WalksTo (body statement lexemes) lexemes (Walk.body walker lexemes) := by
  -- on the number of lexemes, as the loop of the parser
  induction hsize : lexemes.length using Nat.strongRecOn generalizing lexemes with
  | ind size ih =>
    rw [body.eq_def, Walk.body.eq_def]
    cases lexemes with
    | nil => exact .misses _
    | cons lexeme rest =>
      dsimp only
      split
      · rw [List.length_cons] at hsize
        exact .pass lexeme (ih rest.length (by omega) rest rfl)
      · split
        · exact .pass lexeme (.returns _ _)
        · refine .andThen (hstatement _) fun first after _ => ?_
          dsimp only
          split
          · rename_i hlt
            exact .andThen (ih after.length (by omega) after rfl) fun _ _ _ => .returns _ _
          · exact .tooDeep _

/-- To read a block is a walk if reading statements is. -/
theorem block_walks (origin : Origin) (wanted : Expectation) (lexemes : List Lexeme) :
    WalksTo (block origin wanted statement lexemes) lexemes
      (Walk.block origin wanted walker lexemes) := by
  refine .andThen (expect_walks _ _ lexemes) fun opening inside _ => ?_
  exact .andThen (body_walks hstatement inside) fun _ _ _ => .returns _ _

/-- To read a conditional statement is a walk if reading its parts is. -/
theorem conditional_walks (origin : Origin) (place : Option Position)
    {expression : Level → Parser Expr} {walker' : Level → Walker Expr}
    (hexpression : ∀ level lexemes,
      WalksTo (expression level lexemes) lexemes (walker' level lexemes)) (lexemes : List Lexeme) :
    WalksTo (conditional origin place expression statement lexemes) lexemes
      (Walk.conditional origin place walker' walker lexemes) := by
  have hblock := block_walks hstatement origin
  refine .andThen (hexpression _ lexemes) fun condition rest _ => ?_
  refine .andThen (hblock _ rest) fun body behind _ => ?_
  dsimp only
  -- only the word for another body makes the walk go on
  cases behind with
  | nil => exact .returns _ _
  | cons lexeme after =>
    dsimp only
    split
    · exact .pass lexeme (.andThen (hblock _ after) fun _ _ _ => .returns _ _)
    · exact .returns _ _

/-- Reading the statements of a program is a walk that ends where the lexemes do. -/
theorem statements_walks (hconsumes : Consumes statement) (lexemes : List Lexeme) :
    WalksTo ((statements statement lexemes).map fun program => (program, [])) lexemes
      (Walk.statements walker lexemes) := by
  induction lexemes using row_induction hconsumes with
  | nil =>
    rw [statements_nil, Walk.statements.eq_def]
    exact .returns _ _
  | newline lexeme rest htoken ih =>
    rw [statements_newline htoken, Walk.statements.eq_def]
    dsimp only
    rw [if_pos htoken]
    exact .pass lexeme ih
  | step lexeme rest hnewline ih =>
    rw [map_statements hconsumes hnewline, Walk.statements.eq_def]
    dsimp only
    rw [if_neg hnewline]
    refine .andThen (hstatement _) fun first after hfirst => ?_
    -- the check of the loop for progress succeeds
    have hlt := hconsumes _ _ _ hfirst
    dsimp only
    rw [if_pos hlt]
    exact .andThen (ih first after hfirst) fun _ _ _ => .returns _ _

end Statement

/-- To read a statement that ends an expression is a walk if reading the expression is. -/
theorem terminated_walks {expression : Parser Expr} {walker : Walker Expr}
    (wanted : Token → Expectation) (tokens : List Token) (before : Lexeme) (build : Expr → Stmt)
    {lexemes : List Lexeme} (hexpression : WalksTo (expression lexemes) lexemes (walker lexemes)) :
    WalksTo (terminated expression wanted tokens before build lexemes) lexemes
      (Walk.terminated walker wanted tokens before build lexemes) :=
  .andThen hexpression fun _ rest _ => ends_walks _ _ _ rest

/-- Reading a statement is a walk. -/
theorem statement_walks (origin : Origin) (limit : Nat) (lexemes : List Lexeme) :
    WalksTo (statement origin limit lexemes) lexemes (Walk.statement origin limit lexemes) := by
  induction limit generalizing lexemes with
  | zero => exact .tooDeep _
  | succ limit ih =>
    have hexpression := expression_walks origin limit
    cases lexemes with
    | nil => exact .misses _
    | cons lexeme rest =>
      -- one case for each word that decides the form; all other tokens begin an expression
      simp only [Walk.statement]
      cases htoken : lexeme.token with
      | keyword word =>
        cases word with
        | print =>
          rw [statement_print rest htoken]
          exact .pass lexeme (terminated_walks _ _ _ _ (hexpression _ rest))
        | ret =>
          rw [statement_ret rest htoken]
          exact .pass lexeme (terminated_walks _ _ _ _ (hexpression _ rest))
        | cond =>
          rw [statement_cond rest htoken]
          exact .pass lexeme (conditional_walks ih origin _ hexpression rest)
        | loop =>
          rw [statement_unsupported rest (.inl htoken)]
          exact .stay rfl
        | function =>
          rw [statement_unsupported rest (.inr htoken)]
          exact .stay rfl
        | _ =>
          rw [statement_expression rest (by rw [htoken]; rfl)]
          exact .andThen (hexpression _ _) fun _ _ _ => .returns _ _
      | _ =>
        rw [statement_expression rest (by rw [htoken]; rfl)]
        exact .andThen (hexpression _ _) fun _ _ _ => .returns _ _

/-- Reading a program is a walk along its lexemes. -/
theorem ofLexemes_walks (origin : Origin) (limit : Nat) (lexemes : List Lexeme) :
    WalksTo ((ofLexemes origin limit lexemes).map fun program => (program, [])) lexemes
      (Walk.ofLexemes origin limit lexemes) :=
  statements_walks (statement_walks origin limit) (statement_consumes origin limit) lexemes

end Scriptlet.Program
