import Scriptlet.Proofs.Likeness
import Scriptlet.Proofs.Nesting
import Scriptlet.Proofs.Spelling

/-! # Reading the same lexemes elsewhere

Which tokens stand in a row decides how they are read; where they stand only decides the places and
the handles in the trees. So from lexemes that are moved, or under another name and with other
handles set aside, everything is read into trees that are alike, or refused for the same reason at
the same lexeme.

* `Transports`: moving lexemes agrees with a likeness of what is read from them.
* `Transports.ofLexemes`: a program is read into programs that are alike, or refused alike.
* `exists_like_of_ofSource`, `ofSource_of_error`: so is a text under another name, with other
  handles. -/

namespace Scriptlet

/-- A fault after its lexeme is moved. -/
def ParseFault.shift (shift : Lexeme → Lexeme) : ParseFault → ParseFault
  | .unexpected wanted found => .unexpected wanted (shift found)
  | .incomplete wanted => .incomplete wanted
  | .unsupported found => .unsupported (shift found)
  | .tooDeep => .tooDeep

/-- A fault whose lexeme stays where it is stays as it is. -/
theorem ParseFault.shift_id (fault : ParseFault) : fault.shift id = fault := by
  cases fault <;> rfl

namespace Program

variable {α β γ δ : Type}

/-- Answers that correspond: results that belong together, or the same fault at a moved lexeme. -/
inductive Corresponds (shift : Lexeme → Lexeme) (alike : α → β → Prop) :
    Except ParseFault α → Except ParseFault β → Prop where
  | ok {result : α} {result' : β} (h : alike result result') :
    Corresponds shift alike (.ok result) (.ok result')
  | error (fault : ParseFault) :
    Corresponds shift alike (.error fault) (.error (fault.shift shift))

/-- What was read belongs together, and what is left over is moved. -/
def Found (shift : Lexeme → Lexeme) (alike : α → β → Prop) (found : α × List Lexeme)
    (found' : β × List Lexeme) : Prop :=
  alike found.1 found'.1 ∧ found'.2 = found.2.map shift

/-- One parser answers on moved lexemes as another one does on the lexemes themselves. -/
def Accords (shift : Lexeme → Lexeme) (alike : α → β → Prop) (parser : Parser α)
    (parser' : Parser β) : Prop :=
  ∀ lexemes, Corresponds shift (Found shift alike) (parser lexemes) (parser' (lexemes.map shift))

section Corresponds

variable {shift : Lexeme → Lexeme} {alike : α → β → Prop} {last : γ → δ → Prop}

/-- Binding keeps answers together step by step. -/
theorem Corresponds.bind {first : Except ParseFault α} {first' : Except ParseFault β}
    {next : α → Except ParseFault γ} {next' : β → Except ParseFault δ}
    (hfirst : Corresponds shift alike first first')
    (hnext : ∀ result result', first = .ok result → alike result result' →
      Corresponds shift last (next result) (next' result')) :
    Corresponds shift last (first.bind next) (first'.bind next') := by
  cases hfirst with
  | ok h => exact hnext _ _ rfl h
  | error fault => exact .error fault

/-- One parser behind another. -/
theorem Accords.andThen {parser : Parser α} {parser' : Parser β} {next : α → Parser γ}
    {next' : β → Parser δ} (hparser : Accords shift alike parser parser')
    (hnext : ∀ result result', alike result result' →
      Accords shift last (next result) (next' result')) :
    Accords shift last (andThen parser next) (andThen parser' next') := by
  intro lexemes
  refine (hparser lexemes).bind ?_
  rintro ⟨result, rest⟩ ⟨result', _⟩ - ⟨halike, rfl⟩
  exact hnext result result' halike rest

end Corresponds

/-- Moving lexemes agrees with a likeness of what is read from them. -/
structure Transports (like : Likeness) (shift : Lexeme → Lexeme) (origin origin' : Origin) :
    Prop where
  /-- Tokens stay. -/
  token : ∀ lexeme, (shift lexeme).token = lexeme.token
  /-- Positions may stand for each other. -/
  place : ∀ lexeme, Option.Rel like.place (origin.place lexeme) (origin'.place (shift lexeme))
  /-- Literals are alike. -/
  literal : ∀ content lexeme,
    (origin.literal content lexeme).Like like (origin'.literal content (shift lexeme))
  /-- All names may occur. -/
  name : ∀ spelling, like.name spelling

section Transports

variable {like : Likeness} {shift : Lexeme → Lexeme} {origin origin' : Origin}

/-- Moving lexemes leaves the next token. -/
theorem Transports.nextToken (h : Transports like shift origin origin') (lexemes : List Lexeme) :
    nextToken (lexemes.map shift) = nextToken lexemes := by
  cases lexemes with
  | nil => rfl
  | cons lexeme rest => rw [List.map_cons, nextToken_cons, nextToken_cons, h.token]

/-- The last lexeme that was used is the one that was used before the move. -/
theorem Transports.lastUsed (h : Transports like shift origin origin') (lexemes rest : List Lexeme)
    (otherwise : Lexeme) :
    lastUsed (lexemes.map shift) (rest.map shift) (shift otherwise) =
      lastUsed lexemes rest otherwise := by
  simp only [Program.lastUsed, List.length_map, ← List.map_take, List.getLast?_map]
  cases (lexemes.take (lexemes.length - rest.length)).getLast? with
  | none => exact h.token otherwise
  | some last => exact h.token last

/-- A token is expected alike on moved lexemes. -/
theorem Transports.expect (h : Transports like shift origin origin') (wanted : Expectation)
    (token : Token) :
    Accords shift (fun lexeme lexeme' => lexeme' = shift lexeme) (expect wanted token)
      (expect wanted token) := by
  intro lexemes
  cases lexemes with
  | nil => exact .error _
  | cons lexeme rest =>
    rw [List.map_cons, Program.expect, Program.expect, h.token]
    split
    · exact .ok ⟨rfl, rfl⟩
    · exact .error _

/-- An end is demanded alike on moved lexemes. -/
theorem Transports.ends (h : Transports like shift origin origin') (wanted : Expectation)
    (tokens : List Token) (rest : List Lexeme) :
    Corresponds shift Eq (ends wanted tokens rest) (ends wanted tokens (rest.map shift)) := by
  cases rest with
  | nil => exact .ok rfl
  | cons lexeme rest =>
    rw [List.map_cons, Program.ends, Program.ends, h.token]
    split
    · exact .ok rfl
    · exact .error _

/-! ## Expressions -/

section Expr

variable {expression expression' : Level → Parser Expr}
  (hexpression : ∀ level, Accords shift (Expr.Like like) (expression level) (expression' level))

include hexpression

/-- Operands are read alike on moved lexemes if expressions are. -/
theorem Transports.operand (h : Transports like shift origin origin') :
    Accords shift (Expr.Like like) (operand origin expression) (operand origin' expression') := by
  intro lexemes
  cases lexemes with
  | nil => exact .error _
  | cons lexeme rest =>
    have hplace := h.place lexeme
    rw [List.map_cons]
    simp only [Program.operand, h.token]
    -- the tokens are the same, so both parsers take the same branch
    split
    · exact .ok ⟨.name (h.name _) hplace, rfl⟩
    · exact .ok ⟨.number _ hplace, rfl⟩
    · exact .ok ⟨.string (h.literal _ lexeme) hplace, rfl⟩
    · split
      · refine (hexpression _ rest).bind ?_
        rintro ⟨inner, after⟩ ⟨inner', _⟩ - ⟨hinner, rfl⟩
        exact .ok ⟨.unary _ hinner hplace, rfl⟩
      · exact .error _
    · refine (hexpression _ rest).bind ?_
      rintro ⟨inner, after⟩ ⟨inner', _⟩ - ⟨hinner, rfl⟩
      exact .ok ⟨.typeOf hinner hplace, rfl⟩
    · refine (hexpression _ rest).bind ?_
      rintro ⟨inner, after⟩ ⟨inner', _⟩ - ⟨hinner, rfl⟩
      refine (h.expect _ _ after).bind ?_
      rintro ⟨closing, behind⟩ ⟨closing', _⟩ - ⟨-, rfl⟩
      exact .ok ⟨hinner, rfl⟩
    · exact .error _

/-- The operators behind an operand are read alike on moved lexemes if expressions are. -/
theorem Transports.climb (h : Transports like shift origin origin')
    (hconsumes : ∀ level, Consumes (expression level))
    (hconsumes' : ∀ level, Consumes (expression' level)) (floor : Level) {left left' : Expr}
    (hleft : left.Like like left') (lexemes : List Lexeme) :
    Corresponds shift (Found shift (Expr.Like like)) (climb origin expression floor left lexemes)
      (climb origin' expression' floor left' (lexemes.map shift)) := by
  induction left, lexemes using climb_induction origin hconsumes floor generalizing left' with
  | stop left lexemes hstops =>
    -- which operator follows does not change with the move
    have hstops' : Stops floor (lexemes.map shift) := by
      intro op hop
      rw [h.nextToken] at hop
      exact hstops op hop
    rw [climb_stop origin hstops, climb_stop origin' hstops']
    exact .ok ⟨hleft, rfl⟩
  | reject left lexeme op rest htoken hfloor hbinary =>
    have htoken' := (h.token lexeme).trans htoken
    rw [List.map_cons, climb_reject origin htoken hfloor hbinary,
      climb_reject origin' htoken' hfloor hbinary]
    exact .error _
  | extend left lexeme op rest htoken hfloor hbinary ih =>
    have htoken' := (h.token lexeme).trans htoken
    rw [List.map_cons, climb_operator origin hconsumes htoken hfloor hbinary,
      climb_operator origin' hconsumes' htoken' hfloor hbinary]
    refine (hexpression _ rest).bind ?_
    rintro ⟨right, after⟩ ⟨right', _⟩ hread ⟨hright, rfl⟩
    exact ih right after hread (.binary op hleft hright (h.place lexeme))

end Expr

/-- Expressions are read alike on moved lexemes, under every limit and from every level on. -/
theorem Transports.expression (h : Transports like shift origin origin') (limit : Nat)
    (floor : Level) :
    Accords shift (Expr.Like like) (Program.expression origin limit floor)
      (Program.expression origin' limit floor) := by
  induction limit generalizing floor with
  | zero => exact fun lexemes => .error _
  | succ limit ih =>
    intro lexemes
    refine (h.operand ih lexemes).bind ?_
    rintro ⟨left, rest⟩ ⟨left', _⟩ - ⟨hleft, rfl⟩
    exact h.climb ih (expression_consumes origin limit) (expression_consumes origin' limit) floor
      hleft rest

/-! ## Statements -/

section Row

variable {statement statement' : Parser Stmt} (hconsumes : Consumes statement)
  (hconsumes' : Consumes statement')
  (hstatement : Accords shift (Stmt.Like like) statement statement')

include hconsumes hconsumes' hstatement

/-- The inside of a block is read alike on moved lexemes if statements are. -/
theorem Transports.body (h : Transports like shift origin origin') :
    Accords shift (Stmt.LikeAll like) (body statement) (Program.body statement') := by
  intro lexemes
  induction lexemes using row_induction hconsumes with
  | nil =>
    rw [List.map_nil, body_nil, body_nil]
    exact .error _
  | newline lexeme rest htoken ih =>
    rw [List.map_cons, body_newline htoken, body_newline ((h.token lexeme).trans htoken)]
    exact ih
  | step lexeme rest hnewline ih =>
    by_cases hclose : lexeme.token = .closeBrace
    · rw [List.map_cons, body_close hclose, body_close ((h.token lexeme).trans hclose)]
      exact .ok ⟨.nil, rfl⟩
    · rw [List.map_cons, body_statement hconsumes hnewline hclose,
        body_statement hconsumes' (by rwa [h.token]) (by rwa [h.token])]
      refine (hstatement (lexeme :: rest)).bind ?_
      rintro ⟨first, after⟩ ⟨first', _⟩ hread ⟨hfirst, rfl⟩
      -- the rest of the block is read behind a statement that used up lexemes
      refine (ih first after hread).bind ?_
      rintro ⟨others, behind⟩ ⟨others', _⟩ - ⟨hothers, rfl⟩
      exact .ok ⟨.cons hfirst hothers, rfl⟩

/-- Rows of statements are read alike on moved lexemes if statements are. -/
theorem Transports.statements (h : Transports like shift origin origin') (lexemes : List Lexeme) :
    Corresponds shift (Stmt.LikeAll like) (statements statement lexemes)
      (Program.statements statement' (lexemes.map shift)) := by
  induction lexemes using row_induction hconsumes with
  | nil =>
    rw [List.map_nil, statements_nil, statements_nil]
    exact .ok .nil
  | newline lexeme rest htoken ih =>
    rw [List.map_cons, statements_newline htoken, statements_newline ((h.token lexeme).trans htoken)]
    exact ih
  | step lexeme rest hnewline ih =>
    rw [List.map_cons, statements_statement hconsumes hnewline,
      statements_statement hconsumes' (by rwa [h.token])]
    -- the same lexemes are left on both sides, up to the shift
    refine (hstatement (lexeme :: rest)).bind ?_
    rintro ⟨first, after⟩ ⟨first', _⟩ hread ⟨hfirst, rfl⟩
    refine (ih first after hread).bind ?_
    rintro others others' - hothers
    exact .ok (.cons hfirst hothers)

/-- Blocks are read alike on moved lexemes if statements are. -/
theorem Transports.block (h : Transports like shift origin origin') (wanted : Expectation) :
    Accords shift (Stmt.Like like) (block origin wanted statement)
      (Program.block origin' wanted statement') := by
  intro lexemes
  refine (h.expect _ _ lexemes).bind ?_
  rintro ⟨opening, rest⟩ ⟨_, _⟩ - ⟨rfl, rfl⟩
  refine (h.body hconsumes hconsumes' hstatement rest).bind ?_
  rintro ⟨row, behind⟩ ⟨row', _⟩ - ⟨hrow, rfl⟩
  exact .ok ⟨.block hrow (h.place opening), rfl⟩

/-- Conditional statements are read alike on moved lexemes if their bodies are. -/
theorem Transports.conditional (h : Transports like shift origin origin') (limit : Nat)
    {place place' : Option Position} (hplace : Option.Rel like.place place place') :
    Accords shift (Stmt.Like like)
      (conditional origin place (Program.expression origin limit) statement)
      (Program.conditional origin' place' (Program.expression origin' limit) statement') := by
  intro lexemes
  have hblock := h.block hconsumes hconsumes' hstatement
  refine (h.expression limit _ lexemes).bind ?_
  rintro ⟨condition, rest⟩ ⟨condition', _⟩ - ⟨hcondition, rfl⟩
  refine (hblock _ rest).bind ?_
  rintro ⟨body, behind⟩ ⟨body', _⟩ - ⟨hbody, rfl⟩
  -- a second branch is read on both sides or on neither
  cases behind with
  | nil => exact .ok ⟨.cond hcondition hbody hplace, rfl⟩
  | cons lexeme others =>
    simp only [List.map_cons, h.token]
    split
    · refine (hblock _ others).bind ?_
      rintro ⟨other, last⟩ ⟨other', _⟩ - ⟨hother, rfl⟩
      exact .ok ⟨.condElse hcondition hbody hother hplace, rfl⟩
    · exact .ok ⟨.cond hcondition hbody hplace, rfl⟩

end Row

/-- A statement that ends an expression is read alike on moved lexemes. -/
theorem Transports.terminated (h : Transports like shift origin origin') (limit : Nat)
    (wanted : Token → Expectation) (tokens : List Token) (before : Lexeme)
    {build build' : Expr → Stmt}
    (hbuild : ∀ expr expr', expr.Like like expr' → (build expr).Like like (build' expr')) :
    Accords shift (Stmt.Like like)
      (terminated (Program.expression origin limit .lowest) wanted tokens before build)
      (Program.terminated (Program.expression origin' limit .lowest) wanted tokens (shift before)
        build') := by
  intro lexemes
  refine (h.expression limit _ lexemes).bind ?_
  rintro ⟨expr, rest⟩ ⟨expr', _⟩ - ⟨hexpr, rfl⟩
  -- what is expected names the last lexeme used, which is the same token
  rw [h.lastUsed]
  refine (h.ends _ _ rest).bind ?_
  rintro ⟨⟩ ⟨⟩ - -
  exact .ok ⟨hbuild expr expr' hexpr, rfl⟩

/-- Statements are read alike on moved lexemes, under every limit. -/
theorem Transports.statement (h : Transports like shift origin origin') (limit : Nat) :
    Accords shift (Stmt.Like like) (statement origin limit) (Program.statement origin' limit) := by
  induction limit with
  -- without levels left both parsers say so
  | zero => exact fun lexemes => .error _
  | succ limit ih =>
    intro lexemes
    cases lexemes with
    | nil => exact .error _
    | cons lexeme rest =>
      have hplace := h.place lexeme
      have hsame := h.token lexeme
      rw [List.map_cons]
      rcases statement_forms lexeme.token with htoken | htoken | htoken | htoken | htoken
      · rw [statement_print _ htoken, statement_print _ (hsame.trans htoken)]
        exact h.terminated limit _ _ lexeme (fun _ _ hexpr => .print hexpr hplace) rest
      · rw [statement_ret _ htoken, statement_ret _ (hsame.trans htoken)]
        exact h.terminated limit _ _ lexeme (fun _ _ hexpr => .ret hexpr hplace) rest
      · rw [statement_cond _ htoken, statement_cond _ (hsame.trans htoken)]
        exact h.conditional (statement_consumes origin limit) (statement_consumes origin' limit) ih
          limit hplace rest
      · rw [statement_unsupported _ htoken, statement_unsupported _ (by rwa [hsame])]
        exact .error _
      · rw [statement_expression _ htoken, statement_expression _ (by rw [hsame, htoken])]
        exact (h.expression limit .lowest).andThen (fun expr expr' hexpr after =>
          .ok ⟨.expression hexpr hplace, rfl⟩) (lexeme :: rest)

/-- **Moved lexemes are read into a program that is alike**, or refused for the same reason. -/
theorem Transports.ofLexemes (h : Transports like shift origin origin') (limit : Nat)
    (lexemes : List Lexeme) :
    Corresponds shift (Stmt.LikeAll like) (ofLexemes origin limit lexemes)
      (Program.ofLexemes origin' limit (lexemes.map shift)) :=
  h.statements (statement_consumes origin limit) (statement_consumes origin' limit)
    (h.statement limit) lexemes

end Transports

/-! ## Whole texts -/

section Source

variable {limit : Nat} {filename filename' : Option String} {firstHandle firstHandle' : Nat}

/-- Lexemes that stay where they are, in a text under another name and with other handles. -/
theorem transports_id {like : Likeness}
    (hplace : ∀ line column, like.place ⟨filename, line, column⟩ ⟨filename', line, column⟩)
    (hhandle : ∀ offset, like.handle (firstHandle + offset) (firstHandle' + offset))
    (hname : ∀ spelling, like.name spelling) :
    Transports like id ⟨filename, firstHandle⟩ ⟨filename', firstHandle'⟩ where
  token _ := rfl
  place _ := .some (hplace _ _)
  literal content _ := .mk content (hhandle _)
  name := hname

/-- A text that is a program is one under every name, with trees that are alike. -/
theorem exists_like_of_ofSource (like : Likeness) (filename' : Option String) (firstHandle' : Nat)
    (hplace : ∀ line column, like.place ⟨filename, line, column⟩ ⟨filename', line, column⟩)
    (hhandle : ∀ offset, like.handle (firstHandle + offset) (firstHandle' + offset))
    (hname : ∀ spelling, like.name spelling) {source : String} {program : List Stmt}
    (h : ofSource limit filename firstHandle source = .ok program) :
    ∃ program', ofSource limit filename' firstHandle' source = .ok program' ∧
      Stmt.LikeAll like program program' := by
  have hcorresponds := (transports_id hplace hhandle hname).ofLexemes limit (Token.lexemes source)
  rw [ofSource_eq_ok_iff] at h
  rw [h, List.map_id] at hcorresponds
  -- answers that correspond both are programs, since the first one is
  generalize hread : ofLexemes ⟨filename', firstHandle'⟩ limit (Token.lexemes source) = answer
    at hcorresponds
  cases hcorresponds with
  | ok halike => exact ⟨_, ofSource_eq_ok_iff.2 hread, halike⟩

/-- A text is refused where its lexemes are, with the place where it ends. -/
theorem ofSource_eq_error_iff {source : String} {rejection : Rejection} :
    ofSource limit filename firstHandle source = .error rejection ↔
      ∃ fault, ofLexemes ⟨filename, firstHandle⟩ limit (Token.lexemes source) = .error fault ∧
        rejection = ⟨fault, filename, (Token.scan source).2⟩ := by
  unfold ofSource Token.lexemes
  dsimp only
  split
  · rename_i program hread
    simp [hread]
  · rename_i fault hread
    simp [hread, eq_comm]

/-- A text that is refused is refused under every name for the same reason. -/
theorem ofSource_of_error {source : String} {rejection : Rejection}
    (h : ofSource limit filename firstHandle source = .error rejection) (filename' : Option String)
    (firstHandle' : Nat) :
    ofSource limit filename' firstHandle' source =
      .error { rejection with filename := filename' } := by
  -- nothing is asked of the trees, since a rejection has none
  let like : Likeness := ⟨fun _ _ => True, fun _ _ => True, fun _ => True⟩
  have htransports : Transports like id ⟨filename, firstHandle⟩ ⟨filename', firstHandle'⟩ :=
    transports_id (fun _ _ => trivial) (fun _ => trivial) fun _ => trivial
  have hcorresponds := htransports.ofLexemes limit (Token.lexemes source)
  obtain ⟨fault, hfault, rfl⟩ := ofSource_eq_error_iff.1 h
  rw [hfault, List.map_id] at hcorresponds
  generalize hread : ofLexemes ⟨filename', firstHandle'⟩ limit (Token.lexemes source) = answer
    at hcorresponds
  cases hcorresponds with
  | error => exact ofSource_eq_error_iff.2 ⟨_, hread, by rw [ParseFault.shift_id]⟩

/-- A text that is read or refused for another reason than its nesting is so under every higher
limit. -/
theorem ofSource_of_le {higher : Nat} (h : limit ≤ higher) {source : String}
    {answer : Except Rejection (List Stmt)}
    (hread : ofSource limit filename firstHandle source = answer)
    (hdeep : ∀ rejection, answer = .error rejection → rejection.fault ≠ .tooDeep) :
    ofSource higher filename firstHandle source = answer := by
  -- a higher limit changes no answer but the one that the limit is exceeded
  have hsettles := ofLexemes_settles ⟨filename, firstHandle⟩ h (Token.lexemes source)
  cases answer with
  | ok program =>
    rw [ofSource_eq_ok_iff] at hread ⊢
    rw [hsettles (by rw [hread]; nofun), hread]
  | error rejection =>
    obtain ⟨fault, hfault, rfl⟩ := ofSource_eq_error_iff.1 hread
    have hsame : fault ≠ .tooDeep := hdeep _ rfl
    rw [Settles, hfault] at hsettles
    exact ofSource_eq_error_iff.2 ⟨fault, hsettles fun h => hsame (Except.error.inj h), rfl⟩

end Source

end Program

end Scriptlet
