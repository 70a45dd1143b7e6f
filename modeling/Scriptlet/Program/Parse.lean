import Scriptlet.Program.Rejection
import Scriptlet.Stmt

/-! # Parsing

Statements are read by recursive descent and expressions by climbing the levels of the operators.
Every parser takes a list of lexemes and returns what it read together with the lexemes behind it.
A nesting limit is passed down: reading an operand or a statement inside another takes one from it,
while a row of operands or statements takes nothing. The loops over such rows go on only while
lexemes are used up, as every parser does. -/

namespace Scriptlet.Program

/-- Where the nodes of a tree come from. -/
structure Origin where
  /-- The name of the text. -/
  filename : Option String
  /-- The handle of a string literal that begins at the first character of the text; a literal
  further on has a handle greater by its offset. -/
  firstHandle : Nat
  deriving Repr

/-- The position of a lexeme. -/
def Origin.place (origin : Origin) (lexeme : Lexeme) : Option Position :=
  some ⟨origin.filename, lexeme.start.line, lexeme.start.column⟩

/-- The string value of a literal. -/
def Origin.literal (origin : Origin) (content : String) (lexeme : Lexeme) : StringValue :=
  ⟨content, origin.firstHandle + lexeme.start.offset⟩

/-- Reads something at the front of a list of lexemes. -/
abbrev Parser (α : Type) : Type :=
  List Lexeme → Except ParseFault (α × List Lexeme)

/-- Whether a parser uses up at least one lexeme whenever it succeeds. -/
def Consumes {α : Type} (parser : Parser α) : Prop :=
  ∀ lexemes result rest, parser lexemes = .ok (result, rest) → rest.length < lexemes.length

/-- Demands a token at the front. -/
def expect (wanted : Expectation) (token : Token) : Parser Lexeme
  | [] => .error (.incomplete wanted)
  | lexeme :: rest =>
    if lexeme.token = token then .ok (lexeme, rest) else .error (.unexpected wanted lexeme)

/-- Reads an operand with the operators in front of it. -/
def operand (origin : Origin) (expression : Level → Parser Expr) : Parser Expr
  | [] => .error (.incomplete .expression)
  | lexeme :: rest =>
    match lexeme.token with
    | .name spelling => .ok (.name spelling (origin.place lexeme), rest)
    | .number value => .ok (.number value (origin.place lexeme), rest)
    | .text content =>
      .ok (.string (origin.literal content lexeme) (origin.place lexeme), rest)
    | .operator op =>
      if op.isUnary then do
        let (inner, rest) ← expression .unary rest
        .ok (.unary op inner (origin.place lexeme), rest)
      else .error (.unexpected .expression lexeme)
    | .keyword .typeOf => do
      let (inner, rest) ← expression .unary rest
      .ok (.typeOf inner (origin.place lexeme), rest)
    -- parentheses leave no node: what is inside keeps its own place
    | .openParen => do
      let (inner, rest) ← expression .lowest rest
      let (_, rest) ← expect .closeGroup .closeParen rest
      .ok (inner, rest)
    | _ => .error (.unexpected .expression lexeme)

/-- Extends an expression to the right by operators that bind more tightly than a level. -/
def climb (origin : Origin) (expression : Level → Parser Expr) (floor : Level) (left : Expr)
    (lexemes : List Lexeme) : Except ParseFault (Expr × List Lexeme) :=
  match lexemes with
  | [] => .ok (left, [])
  | lexeme :: rest =>
    match lexeme.token with
    | .operator op =>
      if floor.rank < op.level.rank then
        if op.isBinary then do
          let (right, after) ← expression op.rightLevel rest
          if after.length < rest.length then
            climb origin expression floor (.binary left op right (origin.place lexeme)) after
          else .error .tooDeep   -- unreachable: `expression` uses up lexemes
        else .error (.unexpected .binaryOperator lexeme)
      -- an operator that binds no more tightly is left to the expression around
      else .ok (left, lexeme :: rest)
    | _ => .ok (left, lexeme :: rest)
termination_by lexemes.length
decreasing_by simp only [List.length_cons]; omega

/-- Reads an expression made of operators that bind more tightly than a level. -/
def expression (origin : Origin) : Nat → Level → Parser Expr
  | 0, _ => fun _ => .error .tooDeep
  | limit + 1, floor => fun lexemes => do
    let (left, rest) ← operand origin (expression origin limit) lexemes
    climb origin (expression origin limit) floor left rest

/-- The last of the lexemes that were used up on the way to the rest. -/
def lastUsed (lexemes rest : List Lexeme) (otherwise : Lexeme) : Token :=
  ((lexemes.take (lexemes.length - rest.length)).getLast?.getD otherwise).token

/-- Demands that one of some tokens follows, or nothing. -/
def ends (wanted : Expectation) (tokens : List Token) (rest : List Lexeme) :
    Except ParseFault Unit :=
  match rest with
  | [] => .ok ()
  | lexeme :: _ =>
    if lexeme.token ∈ tokens then .ok () else .error (.unexpected wanted lexeme)

/-- Reads statements up to the closing of their block, over any newlines between them. -/
def body (statement : Parser Stmt) (lexemes : List Lexeme) :
    Except ParseFault (List Stmt × List Lexeme) :=
  match lexemes with
  | [] => .error (.incomplete .closeBlock)
  | lexeme :: rest =>
    if lexeme.token = .newline then body statement rest
    else if lexeme.token = .closeBrace then .ok ([], rest)
    else do
      let (first, after) ← statement (lexeme :: rest)
      if after.length < (lexeme :: rest).length then
        let (others, rest) ← body statement after
        .ok (first :: others, rest)
      else .error .tooDeep   -- unreachable: `statement` uses up lexemes
termination_by lexemes.length
decreasing_by
  · simp
  · assumption

/-- Reads a block. -/
def block (origin : Origin) (wanted : Expectation) (statement : Parser Stmt) : Parser Stmt :=
  fun lexemes => do
    let (opening, rest) ← expect wanted .openBrace lexemes
    let (statements, rest) ← body statement rest
    .ok (.block statements (origin.place opening), rest)

/-- Reads a conditional statement behind its reserved word. -/
def conditional (origin : Origin) (place : Option Position) (expression : Level → Parser Expr)
    (statement : Parser Stmt) : Parser Stmt :=
  fun lexemes => do
    let (condition, rest) ← expression .lowest lexemes
    let (body, rest) ← block origin .bodyOfCondition statement rest
    match rest with
    | [] => .ok (.cond condition body place, [])
    | lexeme :: after =>
      if lexeme.token = .keyword .otherwise then do
        let (other, rest) ← block origin .bodyOfAlternative statement after
        .ok (.condElse condition body other place, rest)
      else .ok (.cond condition body place, lexeme :: after)

/-- Reads a statement. -/
def statement (origin : Origin) : Nat → Parser Stmt
  | 0 => fun _ => .error .tooDeep
  | limit + 1 => fun lexemes =>
    match lexemes with
    | [] => .error (.incomplete .expression)
    | lexeme :: rest =>
      let place := origin.place lexeme
      match lexeme.token with
      | .keyword .print => do
        let (expr, after) ← expression origin limit .lowest rest
        -- a block may close behind what is printed, but not behind what is returned
        ends (.endOfPrint (lastUsed rest after lexeme)) [.newline, .closeBrace] after
        .ok (.print expr place, after)
      | .keyword .ret => do
        let (expr, after) ← expression origin limit .lowest rest
        ends (.endOfReturn (lastUsed rest after lexeme)) [.newline] after
        .ok (.ret expr place, after)
      | .keyword .cond =>
        conditional origin place (expression origin limit) (statement origin limit) rest
      | .keyword .loop | .keyword .function => .error (.unsupported lexeme)
      | _ => do
        let (expr, after) ← expression origin limit .lowest (lexeme :: rest)
        .ok (.expression expr place, after)

/-- Reads statements up to the end, over any newlines between them. -/
def statements (statement : Parser Stmt) (lexemes : List Lexeme) : Except ParseFault (List Stmt) :=
  match lexemes with
  | [] => .ok []
  | lexeme :: rest =>
    if lexeme.token = .newline then statements statement rest
    else do
      let (first, after) ← statement (lexeme :: rest)
      if after.length < (lexeme :: rest).length then
        let others ← statements statement after
        .ok (first :: others)
      else .error .tooDeep   -- unreachable: `statement` uses up lexemes
termination_by lexemes.length
decreasing_by
  · simp
  · assumption

/-- Reads a whole program from its lexemes, nested no deeper than a limit. -/
def ofLexemes (origin : Origin) (limit : Nat) (lexemes : List Lexeme) :
    Except ParseFault (List Stmt) :=
  statements (statement origin limit) lexemes

end Scriptlet.Program
