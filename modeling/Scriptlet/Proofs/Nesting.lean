import Scriptlet.Proofs.Parsers

/-! # The nesting limit

A parser that is allowed to nest more deeply gives the same answer, unless the answer was that the
nesting is too deep; and a limit above the number of lexemes is never reached. So whatever is said
about answers other than `tooDeep` does not depend on the limit. -/

namespace Scriptlet.Program

variable {α β : Type}

/-! ## Raising the limit -/

/-- An answer settles another one if they are equal, unless it is that the nesting is too deep. -/
def Settles (answer other : Except ParseFault α) : Prop :=
  answer ≠ .error .tooDeep → other = answer

/-- Every answer settles itself. -/
theorem Settles.refl (answer : Except ParseFault α) : Settles answer answer :=
  fun _ => rfl

/-- An answer that the nesting is too deep settles any other, since it says nothing. -/
theorem Settles.tooDeep (other : Except ParseFault α) : Settles (.error .tooDeep) other :=
  fun h => absurd rfl h

/-- Binding keeps settled what is settled step by step. -/
theorem Settles.bind {first other : Except ParseFault α} {next next' : α → Except ParseFault β}
    (hfirst : Settles first other)
    (hnext : ∀ found, first = .ok found → Settles (next found) (next' found)) :
    Settles (first.bind next) (other.bind next') := by
  intro hdeep
  cases first with
  | error fault =>
    have hfault : fault ≠ .tooDeep := fun h => hdeep (by rw [h]; rfl)
    rw [hfirst (fun h => hfault (Except.error.inj h))]
    rfl
  | ok found =>
    rw [hfirst nofun]
    exact hnext found rfl hdeep

/-- Operands are settled if the expressions inside them are. -/
theorem operand_settles (origin : Origin) {expression expression' : Level → Parser Expr}
    (hexpression : ∀ level lexemes, Settles (expression level lexemes) (expression' level lexemes))
    (lexemes : List Lexeme) :
    Settles (operand origin expression lexemes) (operand origin expression' lexemes) := by
  cases lexemes with
  | nil => exact .refl _
  | cons lexeme rest =>
    -- the cases in the order of the parser: three of one lexeme, three that read on, a refusal
    simp only [operand]
    split
    · exact .refl _
    · exact .refl _
    · exact .refl _
    · split
      · exact .bind (hexpression _ _) fun _ _ => .refl _
      · exact .refl _
    · exact .bind (hexpression _ _) fun _ _ => .refl _
    · exact .bind (hexpression _ _) fun _ _ => .refl _
    · exact .refl _

/-- Extending an expression is settled if the right operands are. -/
theorem climb_settles (origin : Origin) {expression expression' : Level → Parser Expr}
    (hconsumes : ∀ level, Consumes (expression level))
    (hconsumes' : ∀ level, Consumes (expression' level))
    (hexpression : ∀ level lexemes, Settles (expression level lexemes) (expression' level lexemes))
    (floor : Level) (left : Expr) (lexemes : List Lexeme) :
    Settles (climb origin expression floor left lexemes)
      (climb origin expression' floor left lexemes) := by
  -- both loops take the same steps as long as their right operands are settled
  induction left, lexemes using climb_induction origin hconsumes floor with
  | stop left lexemes hstops =>
    rw [climb_stop origin hstops, climb_stop origin hstops]
    exact .refl _
  | reject left lexeme op rest htoken hfloor hbinary =>
    rw [climb_reject origin htoken hfloor hbinary, climb_reject origin htoken hfloor hbinary]
    exact .refl _
  | extend left lexeme op rest htoken hfloor hbinary ih =>
    rw [climb_operator origin hconsumes htoken hfloor hbinary,
      climb_operator origin hconsumes' htoken hfloor hbinary]
    exact .bind (hexpression _ _) fun found hfound => ih found.1 found.2 hfound

/-- Raising the limit by one keeps the answers about expressions. -/
theorem expression_settles (origin : Origin) (limit : Nat) (floor : Level) (lexemes : List Lexeme) :
    Settles (expression origin limit floor lexemes) (expression origin (limit + 1) floor lexemes) := by
  induction limit generalizing floor lexemes with
  | zero => exact .tooDeep _
  | succ limit ih =>
    -- both limits are one lower inside, so the hypothesis is about what is read there
    refine .bind (operand_settles origin ih lexemes) fun found _ => ?_
    exact climb_settles origin (expression_consumes origin limit)
      (expression_consumes origin (limit + 1)) ih floor found.1 found.2

section Row

variable {statement statement' : Parser Stmt} (hconsumes : Consumes statement)
  (hconsumes' : Consumes statement')
  (hstatement : ∀ lexemes, Settles (statement lexemes) (statement' lexemes))

include hconsumes hconsumes' hstatement

/-- Blocks are settled if their statements are. -/
theorem body_settles (lexemes : List Lexeme) :
    Settles (body statement lexemes) (body statement' lexemes) := by
  induction lexemes using row_induction hconsumes with
  | nil =>
    rw [body_nil, body_nil]
    exact .refl _
  | newline lexeme rest htoken ih =>
    rw [body_newline htoken, body_newline htoken]
    exact ih
  | step lexeme rest hnewline ih =>
    by_cases hclose : lexeme.token = .closeBrace
    · rw [body_close hclose, body_close hclose]
      exact .refl _
    · rw [body_statement hconsumes hnewline hclose, body_statement hconsumes' hnewline hclose]
      -- a statement consumes something, so the induction reaches what it leaves
      refine .bind (hstatement _) fun found hfound => ?_
      exact .bind (ih found.1 found.2 hfound) fun _ _ => .refl _

/-- Programs are settled if their statements are. -/
theorem statements_settles (lexemes : List Lexeme) :
    Settles (statements statement lexemes) (statements statement' lexemes) := by
  induction lexemes using row_induction hconsumes with
  | nil =>
    rw [statements_nil, statements_nil]
    exact .refl _
  | newline lexeme rest htoken ih =>
    rw [statements_newline htoken, statements_newline htoken]
    exact ih
  | step lexeme rest hnewline ih =>
    rw [statements_statement hconsumes hnewline, statements_statement hconsumes' hnewline]
    refine .bind (hstatement _) fun found hfound => ?_
    exact .bind (ih found.1 found.2 hfound) fun _ _ => .refl _

/-- A block is settled if the statements in it are. -/
theorem block_settles (origin : Origin) (wanted : Expectation) (lexemes : List Lexeme) :
    Settles (block origin wanted statement lexemes) (block origin wanted statement' lexemes) := by
  refine .bind (.refl _) fun opening _ => ?_
  exact .bind (body_settles hconsumes hconsumes' hstatement _) fun _ _ => .refl _

/-- Conditional statements are settled if their conditions and their statements are. -/
theorem conditional_settles (origin : Origin) (place : Option Position)
    {expression expression' : Level → Parser Expr}
    (hexpression : ∀ level lexemes, Settles (expression level lexemes) (expression' level lexemes))
    (lexemes : List Lexeme) :
    Settles (conditional origin place expression statement lexemes)
      (conditional origin place expression' statement' lexemes) := by
  have hblock := block_settles hconsumes hconsumes' hstatement origin
  refine .bind (hexpression _ _) fun condition _ => .bind (hblock _ _) fun body _ => ?_
  dsimp only
  split
  · exact .refl _
  · split
    · exact .bind (hblock _ _) fun _ _ => .refl _
    · exact .refl _

end Row

/-- A statement that ends an expression is settled if the expression is. -/
theorem terminated_settles {expression expression' : Parser Expr} (wanted : Token → Expectation)
    (tokens : List Token) (before : Lexeme) (build : Expr → Stmt) {lexemes : List Lexeme}
    (hexpression : Settles (expression lexemes) (expression' lexemes)) :
    Settles (terminated expression wanted tokens before build lexemes)
      (terminated expression' wanted tokens before build lexemes) :=
  .bind hexpression fun _ _ => .refl _

/-- Raising the limit by one keeps the answers about statements. -/
theorem statement_settles (origin : Origin) (limit : Nat) (lexemes : List Lexeme) :
    Settles (statement origin limit lexemes) (statement origin (limit + 1) lexemes) := by
  -- with no levels left the answer is that the nesting is too deep, which settles anything
  induction limit generalizing lexemes with
  | zero => exact .tooDeep _
  | succ limit ih =>
    have hexpression := expression_settles origin limit
    cases lexemes with
    | nil => exact .refl _
    | cons lexeme rest =>
      rcases statement_forms lexeme.token with htoken | htoken | htoken | htoken | htoken
      · rw [statement_print rest htoken, statement_print rest htoken]
        exact terminated_settles _ _ _ _ (hexpression _ _)
      · rw [statement_ret rest htoken, statement_ret rest htoken]
        exact terminated_settles _ _ _ _ (hexpression _ _)
      · rw [statement_cond rest htoken, statement_cond rest htoken]
        exact conditional_settles (statement_consumes origin limit)
          (statement_consumes origin (limit + 1)) ih origin _ hexpression rest
      · rw [statement_unsupported rest htoken, statement_unsupported rest htoken]
        exact .refl _
      · rw [statement_expression rest htoken, statement_expression rest htoken]
        exact .bind (hexpression _ _) fun _ _ => .refl _

/-- A program that is read, or refused for another reason than its nesting, is read or refused the
same way under every higher limit. -/
theorem ofLexemes_settles (origin : Origin) {limit higher : Nat} (h : limit ≤ higher)
    (lexemes : List Lexeme) :
    Settles (ofLexemes origin limit lexemes) (ofLexemes origin higher lexemes) := by
  induction h with
  | refl => exact .refl _
  | step _ ih =>
    -- the answer under the limit in between is the same, and so it is not `tooDeep` either
    intro hdeep
    have hsame := ih hdeep
    rw [← hsame] at hdeep
    rw [← hsame]
    exact statements_settles (statement_consumes origin _) (statement_consumes origin _)
      (statement_settles origin _) lexemes hdeep

/-! ## A limit that is never reached -/

/-- Binding is not too deep if no step is. -/
theorem bind_ne_tooDeep {first : Except ParseFault α} {next : α → Except ParseFault β}
    (hfirst : first ≠ .error .tooDeep)
    (hnext : ∀ found, first = .ok found → next found ≠ .error .tooDeep) :
    first.bind next ≠ .error .tooDeep := by
  cases first with
  | error fault => exact fun h => hfirst (by cases h; rfl)
  | ok found => exact hnext found rfl

/-- To expect a token does not nest. -/
theorem expect_ne_tooDeep (wanted : Expectation) (token : Token) (lexemes : List Lexeme) :
    expect wanted token lexemes ≠ .error .tooDeep := by
  unfold expect
  split
  · simp
  · split
    · simp
    · simp

/-- To demand an end does not nest. -/
theorem ends_ne_tooDeep (wanted : Expectation) (tokens : List Token) (rest : List Lexeme) :
    ends wanted tokens rest ≠ .error .tooDeep := by
  unfold ends
  split
  · simp
  · split
    · simp
    · simp

section Bounded

variable {bound : Nat} {expression : Level → Parser Expr}
  (hexpression : ∀ level lexemes, lexemes.length < bound → expression level lexemes ≠ .error .tooDeep)

include hexpression

/-- An operand is not too deep if no expression within the bound is. -/
theorem operand_ne_tooDeep (origin : Origin) {lexemes : List Lexeme}
    (hbound : lexemes.length ≤ bound) : operand origin expression lexemes ≠ .error .tooDeep := by
  cases lexemes with
  | nil => simp [operand]
  | cons lexeme rest =>
    have hrest : ∀ level, expression level rest ≠ .error .tooDeep :=
      fun level => hexpression level rest hbound
    simp only [operand]
    split
    · simp
    · simp
    · simp
    · split
      · exact bind_ne_tooDeep (hrest _) fun _ _ => by simp
      · simp
    · exact bind_ne_tooDeep (hrest _) fun _ _ => by simp
    · exact bind_ne_tooDeep (hrest _) fun _ _ =>
        bind_ne_tooDeep (expect_ne_tooDeep _ _ _) fun _ _ => by simp
    · simp

/-- The operators behind an operand are not too deep if no expression within the bound is. -/
theorem climb_ne_tooDeep (origin : Origin) (hconsumes : ∀ level, Consumes (expression level))
    (floor : Level) (left : Expr) (lexemes : List Lexeme) (hbound : lexemes.length ≤ bound) :
    climb origin expression floor left lexemes ≠ .error .tooDeep := by
  induction left, lexemes using climb_induction origin hconsumes floor with
  | stop left lexemes hstops =>
    rw [climb_stop origin hstops]
    exact nofun
  | reject left lexeme op rest htoken hfloor hbinary =>
    rw [climb_reject origin htoken hfloor hbinary]
    exact nofun
  | extend left lexeme op rest htoken hfloor hbinary ih =>
    rw [climb_operator origin hconsumes htoken hfloor hbinary]
    have hrest : rest.length < bound := hbound
    refine bind_ne_tooDeep (hexpression _ _ hrest) fun found hfound => ?_
    -- the right side leaves fewer lexemes, which are within the bound again
    have hlt := hconsumes _ _ _ _ hfound
    exact ih found.1 found.2 hfound (by omega)

end Bounded

/-- An expression is never too deep for a limit above the number of its lexemes. -/
theorem expression_ne_tooDeep (origin : Origin) (limit : Nat) (floor : Level)
    (lexemes : List Lexeme) (hlimit : lexemes.length < limit) :
    expression origin limit floor lexemes ≠ .error .tooDeep := by
  induction limit generalizing floor lexemes with
  | zero => omega
  | succ limit ih =>
    have hle : lexemes.length ≤ limit := Nat.le_of_lt_succ hlimit
    refine bind_ne_tooDeep (operand_ne_tooDeep ih origin hle) fun found hfound => ?_
    have hlt := operand_consumes origin (expression_consumes origin limit) _ _ _ hfound
    exact climb_ne_tooDeep ih origin (expression_consumes origin limit) floor found.1 found.2
      (by omega)

section Bounded

variable {bound : Nat} {statement : Parser Stmt} (hconsumes : Consumes statement)
  (hstatement : ∀ lexemes, lexemes.length < bound → statement lexemes ≠ .error .tooDeep)

include hconsumes hstatement

/-- The inside of a block is not too deep if no statement within the bound is. -/
theorem body_ne_tooDeep (lexemes : List Lexeme) (hbound : lexemes.length < bound) :
    body statement lexemes ≠ .error .tooDeep := by
  induction lexemes using row_induction hconsumes with
  | nil =>
    rw [body_nil]
    exact nofun
  | newline lexeme rest htoken ih =>
    rw [body_newline htoken]
    exact ih (Nat.lt_of_succ_lt hbound)
  | step lexeme rest hnewline ih =>
    by_cases hclose : lexeme.token = .closeBrace
    · rw [body_close hclose]
      exact nofun
    · rw [body_statement hconsumes hnewline hclose]
      refine bind_ne_tooDeep (hstatement _ hbound) fun found hfound => ?_
      -- the rest of the block is shorter, so the bound holds of it too
      have hlt := hconsumes _ _ _ hfound
      exact bind_ne_tooDeep (ih found.1 found.2 hfound (by omega)) fun _ _ => nofun

/-- A row of statements is not too deep if no statement within the bound is. -/
theorem statements_ne_tooDeep (lexemes : List Lexeme) (hbound : lexemes.length < bound) :
    statements statement lexemes ≠ .error .tooDeep := by
  induction lexemes using row_induction hconsumes with
  | nil =>
    rw [statements_nil]
    exact nofun
  | newline lexeme rest htoken ih =>
    rw [statements_newline htoken]
    exact ih (Nat.lt_of_succ_lt hbound)
  | step lexeme rest hnewline ih =>
    rw [statements_statement hconsumes hnewline]
    refine bind_ne_tooDeep (hstatement _ hbound) fun found hfound => ?_
    have hlt := hconsumes _ _ _ hfound
    exact bind_ne_tooDeep (ih found.1 found.2 hfound (by omega)) fun _ _ => nofun

/-- A block is not too deep if no statement within the bound is. -/
theorem block_ne_tooDeep (origin : Origin) (wanted : Expectation) (lexemes : List Lexeme)
    (hbound : lexemes.length < bound) :
    block origin wanted statement lexemes ≠ .error .tooDeep := by
  refine bind_ne_tooDeep (expect_ne_tooDeep _ _ _) fun found hfound => ?_
  have hlt := expect_consumes _ _ _ _ _ hfound
  exact bind_ne_tooDeep (body_ne_tooDeep hconsumes hstatement _ (by omega)) fun _ _ => nofun

/-- A conditional statement is not too deep if neither its condition nor a statement within the
bound is. -/
theorem conditional_ne_tooDeep (origin : Origin) (place : Option Position)
    {expression : Level → Parser Expr} (hexpressionConsumes : ∀ level, Consumes (expression level))
    {lexemes : List Lexeme} (hexpression : expression .lowest lexemes ≠ .error .tooDeep)
    (hbound : lexemes.length < bound) :
    conditional origin place expression statement lexemes ≠ .error .tooDeep := by
  refine bind_ne_tooDeep hexpression fun condition hcondition => ?_
  have hltCondition := hexpressionConsumes _ _ _ _ hcondition
  -- the blocks stand behind what was used up, so the bound holds of them too
  have hblock := block_ne_tooDeep hconsumes hstatement origin
  refine bind_ne_tooDeep (hblock _ _ (by omega)) fun body hbody => ?_
  have hltBody := block_consumes _ _ _ _ _ _ hbody
  dsimp only
  split
  · simp
  · rename_i lexeme after hafter
    have hlength : after.length < body.2.length := by rw [hafter]; exact Nat.lt_succ_self _
    split
    · exact bind_ne_tooDeep (hblock _ _ (by omega)) fun _ _ => by simp
    · simp

end Bounded

/-- A statement that ends an expression is not too deep if the expression is not. -/
theorem terminated_ne_tooDeep {expression : Parser Expr} (wanted : Token → Expectation)
    (tokens : List Token) (before : Lexeme) (build : Expr → Stmt) {lexemes : List Lexeme}
    (hexpression : expression lexemes ≠ .error .tooDeep) :
    terminated expression wanted tokens before build lexemes ≠ .error .tooDeep :=
  bind_ne_tooDeep hexpression fun _ _ => bind_ne_tooDeep (ends_ne_tooDeep _ _ _) fun _ _ => nofun

/-- A statement is never too deep for a limit well above the number of its lexemes. -/
theorem statement_ne_tooDeep (origin : Origin) (limit : Nat) (lexemes : List Lexeme)
    (hlimit : lexemes.length + 1 < limit) : statement origin limit lexemes ≠ .error .tooDeep := by
  induction limit generalizing lexemes with
  | zero => omega
  | succ limit ih =>
    cases lexemes with
    | nil => exact nofun
    | cons lexeme rest =>
      have hwhole : (lexeme :: rest).length < limit := by omega
      have hrest : rest.length < limit := Nat.lt_of_succ_lt hwhole
      have hexpression := expression_ne_tooDeep origin limit .lowest
      rcases statement_forms lexeme.token with htoken | htoken | htoken | htoken | htoken
      · rw [statement_print rest htoken]
        exact terminated_ne_tooDeep _ _ _ _ (hexpression rest hrest)
      · rw [statement_ret rest htoken]
        exact terminated_ne_tooDeep _ _ _ _ (hexpression rest hrest)
      · -- a statement may nest an expression of as many lexemes, so it needs one level more
        have hstatement : ∀ lexemes, lexemes.length < limit - 1 →
            statement origin limit lexemes ≠ .error .tooDeep := fun lexemes h => ih lexemes (by omega)
        rw [statement_cond rest htoken]
        exact conditional_ne_tooDeep (statement_consumes origin limit) hstatement origin _
          (expression_consumes origin limit) (hexpression rest hrest)
          (by rw [List.length_cons] at hwhole; omega)
      · rw [statement_unsupported rest htoken]
        exact nofun
      · rw [statement_expression rest htoken]
        exact bind_ne_tooDeep (hexpression _ hwhole) fun _ _ => nofun

/-- A program is never too deep for a limit well above the number of its lexemes. -/
theorem ofLexemes_ne_tooDeep (origin : Origin) {limit : Nat} {lexemes : List Lexeme}
    (hlimit : lexemes.length + 1 < limit) : ofLexemes origin limit lexemes ≠ .error .tooDeep := by
  have hstatement : ∀ others, others.length < limit - 1 →
      statement origin limit others ≠ .error .tooDeep :=
    fun others h => statement_ne_tooDeep origin limit others (by omega)
  exact statements_ne_tooDeep (statement_consumes origin limit) hstatement lexemes (by omega)

end Scriptlet.Program
