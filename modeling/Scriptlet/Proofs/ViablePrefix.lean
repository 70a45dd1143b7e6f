import Scriptlet.Proofs.Nesting

/-! # Viable prefixes

The parsers decide from left to right: what they answer depends on the lexemes they used and on the
next one, never on what stands behind it. A parser that is refused a lexeme would have refused it
whatever followed, and could have gone on without it; a parser that runs out of lexemes can be given
more that complete what it was reading. These laws are stated for a parser at one list of lexemes,
so that they pass through sequences of parsers and through the loops. From them follows that an
incomplete program can be completed, and that a rejected lexeme is the first one with which no
program begins. -/

namespace Scriptlet

/-- The lexeme that a fault points at. -/
def ParseFault.culprit? : ParseFault → Option Lexeme
  | .unexpected _ found | .unsupported found => some found
  | .incomplete _ | .tooDeep => none

namespace Program

variable {α β : Type}

/-! ## Parsers that decide from left to right -/

/-- An answer that more lexemes can still turn into a success: all were used, or some are missing. -/
def IsOpen (answer : Except ParseFault (α × List Lexeme)) : Prop :=
  (∃ result, answer = .ok (result, [])) ∨ ∃ wanted, answer = .error (.incomplete wanted)

/-- A list of lexemes that begins with a given one, unless it is empty. -/
def Resumes (next : Lexeme) (lexemes : List Lexeme) : Prop :=
  lexemes = [] ∨ ∃ rest, lexemes = next :: rest

/-- What a parser answers at a list of lexemes is decided from left to right. Where it reads up to
the end, it reads the same in front of lexemes that are an ending for it. -/
structure Online (ending : List Lexeme → Prop) (parser : Parser α) (lexemes : List Lexeme) :
    Prop where
  /-- A result depends on the lexemes used and on the next one, which may also be missing. -/
  ok : ∀ {result next rest}, parser lexemes = .ok (result, next :: rest) →
    ∃ used, lexemes = used ++ next :: rest ∧
      ∀ rest', Resumes next rest' → parser (used ++ rest') = .ok (result, rest')
  /-- A result at the end is the same in front of an ending. -/
  atEnd : ∀ {result}, parser lexemes = .ok (result, []) →
    ∀ rest, ending rest → parser (lexemes ++ rest) = .ok (result, rest)
  /-- A lexeme is refused whatever follows it, and only because of it. -/
  stuck : ∀ {fault found}, parser lexemes = .error fault → fault.culprit? = some found →
    ∃ used rest, lexemes = used ++ found :: rest ∧
      (∀ rest', parser (used ++ found :: rest') = .error fault) ∧ IsOpen (parser used)
  /-- Where lexemes are missing, some can be added. -/
  incomplete : ∀ {wanted}, parser lexemes = .error (.incomplete wanted) →
    ∃ more result, ∀ rest, ending rest → parser (lexemes ++ (more ++ rest)) = .ok (result, rest)

/-- What has to hold of a parser at the end for it to stand behind another one: it is not stuck
there, and it can be completed by lexemes in front of which the other one ends. -/
structure Closes (ending ending' : List Lexeme → Prop) (parser : Parser α) : Prop where
  /-- Nothing is refused at the end. -/
  isOpen : IsOpen (parser [])
  /-- What is missing can be added. -/
  finish : ∃ more result, ∀ rest, ending' rest →
    ending (more ++ rest) ∧ parser (more ++ rest) = .ok (result, rest)
  /-- If nothing is missing, the endings are endings for the other parser. -/
  atEnd : ∀ {result}, parser [] = .ok (result, []) → ∀ rest, ending' rest → ending rest

/-- Lexemes go on with the first of them. -/
theorem Resumes.cons (next : Lexeme) (rest : List Lexeme) : Resumes next (next :: rest) :=
  .inr ⟨rest, rfl⟩

/-- A list that begins as another one does, and then goes on after some of it, still begins so. -/
theorem Resumes.append {first next : Lexeme} {others used rest rest' : List Lexeme}
    (h : first :: others = used ++ next :: rest) (hrest : Resumes next rest') :
    Resumes first (used ++ rest') := by
  cases used with
  | nil =>
    obtain ⟨rfl, rfl⟩ := List.cons.inj h
    exact hrest
  | cons lexeme more =>
    obtain ⟨rfl, -⟩ := List.cons.inj h
    exact .cons _ _

/-- Fewer endings are endings all the same. -/
theorem Online.mono {ending ending' : List Lexeme → Prop} {parser : Parser α} {lexemes : List Lexeme}
    (h : Online ending parser lexemes) (hending : ∀ rest, ending' rest → ending rest) :
    Online ending' parser lexemes where
  ok := h.ok
  atEnd hok rest hrest := h.atEnd hok rest (hending rest hrest)
  stuck := h.stuck
  incomplete herror := by
    obtain ⟨more, result, hmore⟩ := h.incomplete herror
    exact ⟨more, result, fun rest hrest => hmore rest (hending rest hrest)⟩

/-- Reading nothing is decided from left to right. -/
theorem online_pure (ending : List Lexeme → Prop) (result : α) (lexemes : List Lexeme) :
    Online ending (fun rest => .ok (result, rest)) lexemes where
  ok h := by
    cases h
    exact ⟨[], rfl, fun _ _ => rfl⟩
  atEnd h rest _ := by
    cases h
    rfl
  stuck h := by cases h
  incomplete h := by cases h

/-- Reading nothing stands behind any parser. -/
theorem closes_pure (ending : List Lexeme → Prop) (result : α) :
    Closes ending ending (fun rest => .ok (result, rest)) where
  isOpen := .inl ⟨result, rfl⟩
  finish := ⟨[], result, fun _ h => ⟨h, rfl⟩⟩
  atEnd _ _ h := h

/-- A parser that only complains of the nesting is decided. -/
theorem online_tooDeep (ending : List Lexeme → Prop) {parser : Parser α} {lexemes : List Lexeme}
    (h : parser lexemes = .error .tooDeep) : Online ending parser lexemes where
  ok hok := by rw [h] at hok; cases hok
  atEnd hok := by rw [h] at hok; cases hok
  stuck herror hculprit := by
    rw [h] at herror
    cases herror
    cases hculprit
  incomplete herror := by rw [h] at herror; cases herror

/-- A parser that refuses its first lexeme, whatever follows. -/
theorem online_refuse (ending : List Lexeme → Prop) {parser : Parser α} {lexeme : Lexeme}
    {fault : ParseFault} (h : ∀ rest, parser (lexeme :: rest) = .error fault)
    (hculprit : fault.culprit? = some lexeme) (hopen : IsOpen (parser [])) (rest : List Lexeme) :
    Online ending parser (lexeme :: rest) where
  ok hok := by rw [h] at hok; cases hok
  atEnd hok := by rw [h] at hok; cases hok
  stuck herror hfound := by
    rw [h] at herror
    cases herror
    rw [hculprit] at hfound
    cases hfound
    exact ⟨[], rest, rfl, h, hopen⟩
  incomplete herror := by
    rw [h] at herror
    cases herror
    cases hculprit

/-- A parser that uses nothing, because of the next lexeme or because there is none. -/
theorem online_stay {ending : List Lexeme → Prop} {parser : Parser α} {result : α}
    {lexemes : List Lexeme} (h : parser lexemes = .ok (result, lexemes))
    (hnext : ∀ next rest, lexemes = next :: rest →
      ∀ rest', Resumes next rest' → parser rest' = .ok (result, rest'))
    (hend : lexemes = [] → ∀ rest, ending rest → parser rest = .ok (result, rest)) :
    Online ending parser lexemes where
  -- nothing is used, so all depends on what may follow
  ok {result' next rest} hok := by
    rw [h] at hok
    cases hok
    exact ⟨[], rfl, hnext next rest rfl⟩
  atEnd hok := by
    rw [h] at hok
    cases hok
    exact hend rfl
  stuck herror := by rw [h] at herror; cases herror
  incomplete herror := by rw [h] at herror; cases herror

/-- A parser that uses its first lexeme and goes on as another one. -/
theorem Online.cons {ending : List Lexeme → Prop} {parser next : Parser α} {lexeme : Lexeme}
    {rest : List Lexeme} (h : ∀ rest, parser (lexeme :: rest) = next rest)
    (hnext : Online ending next rest) : Online ending parser (lexeme :: rest) where
  -- everything is decided behind the lexeme, which is always taken
  ok hok := by
    rw [h] at hok
    obtain ⟨used, rfl, hused⟩ := hnext.ok hok
    exact ⟨lexeme :: used, rfl, fun rest' hrest => (h _).trans (hused rest' hrest)⟩
  atEnd hok rest' hrest := by
    rw [h] at hok
    exact (h _).trans (hnext.atEnd hok rest' hrest)
  stuck herror hculprit := by
    rw [h] at herror
    obtain ⟨used, behind, rfl, hstuck, hopen⟩ := hnext.stuck herror hculprit
    exact ⟨lexeme :: used, behind, rfl, fun rest' => (h _).trans (hstuck rest'), by rw [h]; exact hopen⟩
  incomplete herror := by
    rw [h] at herror
    obtain ⟨more, result, hmore⟩ := hnext.incomplete herror
    exact ⟨more, result, fun rest' hrest => (h _).trans (hmore rest' hrest)⟩

/-- A parser that agrees with another one behind a lexeme, and uses that lexeme. -/
theorem Online.congr {ending : List Lexeme → Prop} {parser other : Parser α} {lexeme : Lexeme}
    {rest : List Lexeme} (h : ∀ rest, parser (lexeme :: rest) = other (lexeme :: rest))
    (hopen : IsOpen (parser []))
    (hused : ∀ result next behind, parser (lexeme :: rest) = .ok (result, next :: behind) →
      (next :: behind).length < (lexeme :: rest).length)
    (hother : Online ending other (lexeme :: rest)) : Online ending parser (lexeme :: rest) where
  ok {result next behind} hok := by
    -- at least the first lexeme was used, so both parsers agree on what was
    have hlt := hused result next behind hok
    rw [h] at hok
    obtain ⟨used, heq, hmore⟩ := hother.ok hok
    cases used with
    | nil => rw [heq, List.nil_append] at hlt; omega
    | cons first used =>
      obtain ⟨rfl, -⟩ := List.cons.inj heq
      exact ⟨lexeme :: used, heq, fun rest' hrest => (h _).trans (hmore rest' hrest)⟩
  atEnd hok rest' hrest := by
    rw [h] at hok
    exact (h _).trans (hother.atEnd hok rest' hrest)
  stuck herror hculprit := by
    rw [h] at herror
    obtain ⟨used, behind, heq, hstuck, hopen'⟩ := hother.stuck herror hculprit
    cases used with
    | nil =>
      -- the parsers need not agree without the first lexeme, hence `hopen`
      obtain ⟨rfl, -⟩ := List.cons.inj heq
      exact ⟨[], behind, heq, fun rest' => (h _).trans (hstuck rest'), hopen⟩
    | cons first used =>
      obtain ⟨rfl, -⟩ := List.cons.inj heq
      exact ⟨lexeme :: used, behind, heq, fun rest' => (h _).trans (hstuck rest'),
        by rw [h]; exact hopen'⟩
  incomplete herror := by
    rw [h] at herror
    obtain ⟨more, result, hmore⟩ := hother.incomplete herror
    exact ⟨more, result, fun rest' hrest => (h _).trans (hmore rest' hrest)⟩

section AndThen

variable {ending ending' : List Lexeme → Prop} {first : Parser α} {next : α → Parser β}
  {lexemes : List Lexeme}

/-- Behind a parser that returns, the next one reads what is left. -/
theorem andThen_of_ok {found : α} {rest : List Lexeme} (h : first lexemes = .ok (found, rest)) :
    andThen first next lexemes = next found rest := by
  rw [andThen, h]
  rfl

/-- Behind a parser that fails, nothing is read. -/
theorem andThen_of_error {fault : ParseFault} (h : first lexemes = .error fault) :
    andThen first next lexemes = .error fault := by
  rw [andThen, h]
  rfl

/-- Behind an open answer, a parser that closes leaves an open answer. -/
theorem IsOpen.andThen (h : IsOpen (first lexemes)) (hnext : ∀ found, IsOpen (next found [])) :
    IsOpen (Program.andThen first next lexemes) := by
  rcases h with ⟨found, hfound⟩ | ⟨wanted, hwanted⟩
  · rw [andThen_of_ok hfound]
    exact hnext found
  · exact .inr ⟨wanted, andThen_of_error hwanted⟩

/-- What was read in front of lexemes that were then used in part is read again in front of that
part, whatever follows in place of the rest. -/
theorem Online.read_again (h : Online ending first lexemes) {found : α} {rest used behind : List Lexeme}
    {following : Lexeme} (hfound : first lexemes = .ok (found, rest))
    (hrest : rest = used ++ following :: behind) :
    ∃ before, lexemes = before ++ rest ∧ ∀ rest', Resumes following rest' →
      first (before ++ (used ++ rest')) = .ok (found, used ++ rest') := by
  -- not all lexemes were read, and so the answer depends only on the first one left over
  obtain ⟨lexeme, others, rfl⟩ : ∃ lexeme others, rest = lexeme :: others :=
    List.exists_cons_of_ne_nil (by rw [hrest]; exact List.append_ne_nil_of_right_ne_nil _ nofun)
  obtain ⟨before, hbefore, hagain⟩ := h.ok hfound
  exact ⟨before, hbefore, fun rest' hrest' => hagain _ (hrest'.append hrest)⟩

/-- One parser behind another is decided from left to right if both are. -/
theorem Online.andThen (hfirst : Online ending first lexemes)
    (hnext : ∀ found rest, first lexemes = .ok (found, rest) → Online ending' (next found) rest)
    (hcloses : ∀ found, Closes ending ending' (next found)) :
    Online ending' (Program.andThen first next) lexemes where
  ok {result following behind} hok := by
    obtain ⟨⟨found, rest⟩, hfound, hresult⟩ := bind_eq_ok hok
    obtain ⟨used', hrest, hused'⟩ := (hnext found rest hfound).ok hresult
    obtain ⟨used, rfl, hused⟩ := hfirst.read_again hfound hrest
    refine ⟨used ++ used', by rw [hrest, List.append_assoc], fun rest' hrest' => ?_⟩
    rw [List.append_assoc, andThen_of_ok (hused rest' hrest')]
    exact hused' rest' hrest'
  atEnd {result} hok rest' hrest' := by
    obtain ⟨⟨found, rest⟩, hfound, hresult⟩ := bind_eq_ok hok
    have hsecond := (hnext found rest hfound).atEnd hresult rest' hrest'
    cases rest with
    | nil =>
      -- both parsers came to the end, so what follows has to be an ending for the first one too
      rw [andThen_of_ok (hfirst.atEnd hfound rest' ((hcloses found).atEnd hresult rest' hrest'))]
      exact hsecond
    | cons lexeme others =>
      obtain ⟨used, rfl, hused⟩ := hfirst.ok hfound
      rw [List.append_assoc, List.cons_append, andThen_of_ok (hused _ (.cons _ _))]
      exact hsecond
  stuck {fault culprit} herror hculprit := by
    cases hfound : first lexemes with
    | error fault' =>
      rw [andThen_of_error hfound] at herror
      cases herror
      obtain ⟨used, rest, rfl, hstuck, hopen⟩ := hfirst.stuck hfound hculprit
      exact ⟨used, rest, rfl, fun rest' => andThen_of_error (hstuck rest'),
        hopen.andThen fun found => (hcloses found).isOpen⟩
    | ok found =>
      obtain ⟨found, rest⟩ := found
      rw [andThen_of_ok hfound] at herror
      obtain ⟨used', behind, hrest, hstuck, hopen⟩ := (hnext found rest hfound).stuck herror hculprit
      obtain ⟨used, rfl, hused⟩ := hfirst.read_again hfound hrest
      refine ⟨used ++ used', behind, by rw [hrest, List.append_assoc], fun rest' => ?_, ?_⟩
      · rw [List.append_assoc, andThen_of_ok (hused _ (.cons culprit rest'))]
        exact hstuck rest'
      · have hcut := hused [] (.inl rfl)
        rw [List.append_nil] at hcut
        rw [andThen_of_ok hcut]
        exact hopen
  incomplete {wanted} herror := by
    cases hfound : first lexemes with
    | error fault =>
      -- the first parser is completed, and then the second one from nothing
      rw [andThen_of_error hfound] at herror
      cases herror
      obtain ⟨more, found, hmore⟩ := hfirst.incomplete hfound
      obtain ⟨more', result, hmore'⟩ := (hcloses found).finish
      refine ⟨more ++ more', result, fun rest' hrest' => ?_⟩
      rw [List.append_assoc, andThen_of_ok (hmore _ (hmore' rest' hrest').1)]
      exact (hmore' rest' hrest').2
    | ok found =>
      obtain ⟨found, rest⟩ := found
      rw [andThen_of_ok hfound] at herror
      cases rest with
      | nil =>
        -- nothing was left for the second parser, which has to begin so that the first one ends
        obtain ⟨more, result, hmore⟩ := (hcloses found).finish
        refine ⟨more, result, fun rest' hrest' => ?_⟩
        rw [andThen_of_ok (hfirst.atEnd hfound _ (hmore rest' hrest').1)]
        exact (hmore rest' hrest').2
      | cons lexeme others =>
        obtain ⟨more, result, hmore⟩ := (hnext found _ hfound).incomplete herror
        obtain ⟨used, rfl, hused⟩ := hfirst.ok hfound
        refine ⟨more, result, fun rest' hrest' => ?_⟩
        rw [List.append_assoc, List.cons_append, andThen_of_ok (hused _ (.cons _ _))]
        exact hmore rest' hrest'

/-- What a parser reads may be put into a tree. -/
theorem Online.map (h : Online ending first lexemes) (build : α → β) :
    Online ending (Program.andThen first fun found rest => .ok (build found, rest)) lexemes :=
  h.andThen (fun _ _ _ => online_pure _ _ _) fun _ => closes_pure _ _

end AndThen

/-! ## Expressions -/

/-- What is no operator ends an expression. -/
def EndsExpr (lexemes : List Lexeme) : Prop :=
  ∀ op, nextToken lexemes ≠ some (.operator op)

/-- A lexeme with a given token, at the beginning of a text. -/
def lexemeOf (token : Token) : Lexeme :=
  ⟨token, {}, {}⟩

/-- A token that is expected and stands in front is found. -/
theorem expect_lexemeOf (wanted : Expectation) (token : Token) (rest : List Lexeme) :
    expect wanted token (lexemeOf token :: rest) = .ok (lexemeOf token, rest) :=
  if_pos rfl

/-- Demanding a token is decided at once. -/
theorem expect_online (ending : List Lexeme → Prop) (wanted : Expectation) (token : Token)
    (lexemes : List Lexeme) : Online ending (expect wanted token) lexemes := by
  cases lexemes with
  | nil =>
    refine ⟨nofun, nofun, ?_, fun _ => ⟨[lexemeOf token], _, fun _ _ => expect_lexemeOf _ _ _⟩⟩
    intro fault found herror hculprit
    cases herror
    cases hculprit
  | cons lexeme rest =>
    by_cases htoken : lexeme.token = token
    · have htake : ∀ rest, expect wanted token (lexeme :: rest) = .ok (lexeme, rest) :=
        fun _ => if_pos htoken
      -- the token is taken or refused, whatever is behind it
      exact .cons htake (online_pure _ _ _)
    · have hrefuse : ∀ rest,
          expect wanted token (lexeme :: rest) = .error (.unexpected wanted lexeme) :=
        fun _ => if_neg htoken
      exact online_refuse _ hrefuse rfl (.inr ⟨wanted, rfl⟩) rest

/-- A lexeme that opens no operand is refused as one. -/
theorem operand_refuse (origin : Origin) {expression : Level → Parser Expr} {lexeme : Lexeme}
    (h : opensOperand lexeme.token = false) (rest : List Lexeme) :
    operand origin expression (lexeme :: rest) = .error (.unexpected .expression lexeme) := by
  simp only [operand]
  split
  · rename_i htoken; rw [htoken] at h; cases h
  · rename_i htoken; rw [htoken] at h; cases h
  · rename_i htoken; rw [htoken] at h; cases h
  -- an operator opens an operand only if it can stand before one
  · rename_i op htoken
    rw [htoken] at h
    exact if_neg (by rw [show op.isUnary = false from h]; exact Bool.false_ne_true)
  · rename_i htoken; rw [htoken] at h; cases h
  · rename_i htoken; rw [htoken] at h; cases h
  · rfl

/-- Behind an expression in parentheses, the closing one is demanded. -/
theorem closeGroup_closes (inner : Expr) :
    Closes EndsExpr EndsExpr
      (andThen (expect .closeGroup .closeParen) fun _ rest => .ok (inner, rest)) where
  isOpen := .inr ⟨.closeGroup, rfl⟩
  finish := ⟨[lexemeOf .closeParen], inner, fun _ _ => ⟨nofun, rfl⟩⟩
  atEnd := nofun

/-- Reading an operand is decided from left to right if reading the expressions inside it is. -/
theorem operand_online (origin : Origin) {expression : Level → Parser Expr}
    (hexpression : ∀ level lexemes, Online EndsExpr (expression level) lexemes)
    (lexemes : List Lexeme) : Online EndsExpr (operand origin expression) lexemes := by
  cases lexemes with
  | nil =>
    -- any name completes what lacks an operand
    refine ⟨nofun, nofun, ?_, fun _ => ⟨[lexemeOf (.name "")], _, fun rest _ => rfl⟩⟩
    intro fault found herror hculprit
    cases herror
    cases hculprit
  | cons lexeme rest =>
    cases hopens : opensOperand lexeme.token with
    | false =>
      exact online_refuse _ (operand_refuse origin hopens) rfl (.inr ⟨.expression, rfl⟩) rest
    | true =>
      cases htoken : lexeme.token with
      | name spelling =>
        exact .cons (fun rest => by simp only [operand, htoken]; rfl) (online_pure _ _ _)
      | number value =>
        exact .cons (fun rest => by simp only [operand, htoken]; rfl) (online_pure _ _ _)
      | text content =>
        exact .cons (fun rest => by simp only [operand, htoken]; rfl) (online_pure _ _ _)
      | operator op =>
        rw [htoken] at hopens
        refine .cons (fun rest => ?_) ((hexpression .unary rest).map
          fun inner => .unary op inner (origin.place lexeme))
        simp only [operand, htoken, if_pos (show op.isUnary = true from hopens)]
        rfl
      | openParen =>
        refine .cons (fun rest => ?_) ((hexpression .lowest rest).andThen
          (fun inner after _ => (expect_online _ .closeGroup .closeParen after).map fun _ => inner)
          closeGroup_closes)
        simp only [operand, htoken]
        rfl
      | keyword word =>
        cases word with
        | typeOf =>
          refine .cons (fun rest => ?_) ((hexpression .unary rest).map
            fun inner => .typeOf inner (origin.place lexeme))
          simp only [operand, htoken]
          rfl
        | _ => rw [htoken] at hopens; cases hopens
      | _ => rw [htoken] at hopens; cases hopens

/-- At the end of the lexemes, an expression is complete. -/
theorem climb_closes (origin : Origin) (expression : Level → Parser Expr) (floor : Level)
    (left : Expr) : Closes EndsExpr EndsExpr (climb origin expression floor left) where
  isOpen := .inl ⟨left, climb_stop origin (stops_nil floor)⟩
  finish := ⟨[], left, fun _ h => ⟨h, climb_stop origin (stops_of_ne_operator h)⟩⟩
  atEnd _ _ h := h

/-- Extending an expression is decided from left to right if reading the right operands is. -/
theorem climb_online (origin : Origin) {expression : Level → Parser Expr}
    (hconsumes : ∀ level, Consumes (expression level))
    (hexpression : ∀ level lexemes, Online EndsExpr (expression level) lexemes)
    (floor : Level) (left : Expr) (lexemes : List Lexeme) :
    Online EndsExpr (climb origin expression floor left) lexemes := by
  induction left, lexemes using climb_induction origin hconsumes floor with
  | stop left lexemes hstops =>
    -- nothing is used: the next lexeme stops the loop, and so does its absence
    refine online_stay (climb_stop origin hstops) ?_ ?_
    · rintro next rest rfl rest' (rfl | ⟨behind, rfl⟩)
      · exact climb_stop origin (stops_nil floor)
      · exact climb_stop origin hstops
    · exact fun _ rest hrest => climb_stop origin (stops_of_ne_operator hrest)
  | reject left lexeme op rest htoken hfloor hbinary =>
    exact online_refuse _ (fun rest => climb_reject origin htoken hfloor hbinary) rfl
      (climb_closes origin expression floor left).isOpen rest
  | extend left lexeme op rest htoken hfloor hbinary ih =>
    exact .cons (fun rest => climb_operator origin hconsumes htoken hfloor hbinary)
      ((hexpression op.rightLevel rest).andThen ih fun right => climb_closes origin expression floor _)

/-- Reading an expression is decided from left to right. -/
theorem expression_online (origin : Origin) (limit : Nat) (floor : Level) (lexemes : List Lexeme) :
    Online EndsExpr (expression origin limit floor) lexemes := by
  induction limit generalizing floor lexemes with
  | zero => exact online_tooDeep _ rfl
  | succ limit ih =>
    exact (operand_online origin ih lexemes).andThen
      (fun left rest _ => climb_online origin (expression_consumes origin limit) ih floor left rest)
      (climb_closes origin (expression origin limit) floor)

/-! ## Statements -/

/-- A newline ends a statement, and so does the end of the lexemes. -/
def EndsStmt (lexemes : List Lexeme) : Prop :=
  nextToken lexemes = none ∨ nextToken lexemes = some .newline

/-- What ends a statement ends an expression. -/
theorem EndsStmt.endsExpr {lexemes : List Lexeme} (h : EndsStmt lexemes) : EndsExpr lexemes := by
  intro op hop
  rcases h with h | h <;> rw [hop] at h <;> cases h

/-- The last lexeme used depends only on the lexemes used. -/
theorem lastUsed_append (used rest : List Lexeme) (otherwise : Lexeme) :
    lastUsed (used ++ rest) rest otherwise = (used.getLast?.getD otherwise).token := by
  simp [lastUsed]

section Terminated

variable {expression : Parser Expr} {wanted : Token → Expectation} {tokens : List Token}
  {before : Lexeme} {build : Expr → Stmt} {lexemes : List Lexeme}

/-- A newline is always an end. -/
theorem EndsStmt.endsBy {rest : List Lexeme} (h : EndsStmt rest) (hnewline : .newline ∈ tokens) :
    EndsBy tokens rest :=
  h.imp_right fun h => ⟨_, hnewline, h⟩

/-- What ends an expression still ends it where the lexemes are cut off behind it. -/
theorem EndsBy.resumes {next : Lexeme} {rest rest' : List Lexeme}
    (h : EndsBy tokens (next :: rest)) (hrest : Resumes next rest') : EndsBy tokens rest' := by
  rcases hrest with rfl | ⟨others, rfl⟩
  · exact .inl rfl
  · exact h

/-- What follows in place of an end is refused. -/
theorem terminated_refuse {used rest : List Lexeme} {expr : Expr} {next : Lexeme}
    (h : expression (used ++ next :: rest) = .ok (expr, next :: rest))
    (hends : next.token ∉ tokens) :
    terminated expression wanted tokens before build (used ++ next :: rest) =
      .error (.unexpected (wanted (used.getLast?.getD before).token) next) := by
  rw [terminated, h]
  show (ends (wanted (lastUsed (used ++ next :: rest) (next :: rest) before)) tokens _).bind _ = _
  rw [lastUsed_append, ends, if_neg hends]
  rfl

/-- An open answer of the expression is one of the statement. -/
theorem IsOpen.terminated (h : IsOpen (expression lexemes)) :
    IsOpen (Program.terminated expression wanted tokens before build lexemes) := by
  rcases h with ⟨expr, hexpr⟩ | ⟨missing, hmissing⟩
  · exact .inl ⟨build expr, terminated_of_ok hexpr (.inl rfl)⟩
  · exact .inr ⟨missing, terminated_of_error hmissing⟩

/-- An expression is refused, or it is read and ends well, or it is read and something else follows. -/
theorem terminated_cases (expression : Parser Expr) (tokens : List Token) (lexemes : List Lexeme) :
    (∃ fault, expression lexemes = .error fault) ∨
    (∃ expr rest, expression lexemes = .ok (expr, rest) ∧ EndsBy tokens rest) ∨
    (∃ expr next rest, expression lexemes = .ok (expr, next :: rest) ∧ next.token ∉ tokens) := by
  cases hread : expression lexemes with
  | error fault => exact .inl ⟨fault, rfl⟩
  | ok found =>
    obtain ⟨expr, rest⟩ := found
    -- the end of the text ends a statement as well
    cases rest with
    | nil => exact .inr (.inl ⟨expr, [], rfl, .inl rfl⟩)
    | cons next rest =>
      by_cases hnext : next.token ∈ tokens
      · exact .inr (.inl ⟨expr, next :: rest, rfl, .inr ⟨next.token, hnext, rfl⟩⟩)
      · exact .inr (.inr ⟨expr, next, rest, rfl, hnext⟩)

/-- Where the expression is not read, neither is the statement. -/
theorem terminated_online_of_error {fault : ParseFault} (h : Online EndsExpr expression lexemes)
    (hnewline : .newline ∈ tokens) (hread : expression lexemes = .error fault) :
    Online EndsStmt (terminated expression wanted tokens before build) lexemes where
  ok hok := by
    rw [terminated_of_error hread] at hok
    cases hok
  atEnd hok := by
    rw [terminated_of_error hread] at hok
    cases hok
  stuck herror hculprit := by
    rw [terminated_of_error hread] at herror
    cases herror
    obtain ⟨used, rest, rfl, hstuck, hopen⟩ := h.stuck hread hculprit
    exact ⟨used, rest, rfl, fun rest' => terminated_of_error (hstuck rest'), hopen.terminated⟩
  incomplete herror := by
    rw [terminated_of_error hread] at herror
    cases herror
    -- what completes the expression completes the statement, since a newline ends both
    obtain ⟨more, expr, hmore⟩ := h.incomplete hread
    exact ⟨more, build expr, fun rest' hrest' =>
      terminated_of_ok (hmore rest' hrest'.endsExpr) (hrest'.endsBy hnewline)⟩

/-- Where the expression is read and ends well, so does the statement. -/
theorem terminated_online_of_ok {expr : Expr} {rest : List Lexeme}
    (h : Online EndsExpr expression lexemes) (hnewline : .newline ∈ tokens)
    (hread : expression lexemes = .ok (expr, rest)) (hends : EndsBy tokens rest) :
    Online EndsStmt (terminated expression wanted tokens before build) lexemes where
  -- what may follow the statement still ends it, so it is read the same way
  ok hok := by
    rw [terminated_of_ok hread hends] at hok
    cases hok
    obtain ⟨used, rfl, hused⟩ := h.ok hread
    exact ⟨used, rfl, fun rest' hrest' =>
      terminated_of_ok (hused rest' hrest') (hends.resumes hrest')⟩
  atEnd hok rest' hrest' := by
    rw [terminated_of_ok hread hends] at hok
    cases hok
    exact terminated_of_ok (h.atEnd hread rest' hrest'.endsExpr) (hrest'.endsBy hnewline)
  stuck herror := by
    rw [terminated_of_ok hread hends] at herror
    cases herror
  incomplete herror := by
    rw [terminated_of_ok hread hends] at herror
    cases herror

/-- Where something else follows the expression, it is refused, and without it the statement would
have been complete. -/
theorem terminated_online_of_refuse {expr : Expr} {next : Lexeme} {rest : List Lexeme}
    (h : Online EndsExpr expression lexemes) (hread : expression lexemes = .ok (expr, next :: rest))
    (hnext : next.token ∉ tokens) :
    Online EndsStmt (terminated expression wanted tokens before build) lexemes := by
  obtain ⟨used, rfl, hused⟩ := h.ok hread
  refine ⟨fun hok => ?_, fun hok => ?_, fun herror hculprit => ?_, fun herror => ?_⟩
  · rw [terminated_refuse hread hnext] at hok
    cases hok
  · rw [terminated_refuse hread hnext] at hok
    cases hok
  · rw [terminated_refuse hread hnext] at herror
    cases herror
    cases hculprit
    -- without the refused lexeme the expression is whole, so nothing was stuck before it
    have hempty := hused [] (.inl rfl)
    rw [List.append_nil] at hempty
    exact ⟨used, rest, rfl, fun rest' => terminated_refuse (hused _ (.cons _ _)) hnext,
      IsOpen.terminated (.inl ⟨expr, hempty⟩)⟩
  · rw [terminated_refuse hread hnext] at herror
    cases herror

/-- Reading a terminated expression is decided from left to right if reading the expression is. -/
theorem terminated_online (h : Online EndsExpr expression lexemes) (hnewline : .newline ∈ tokens) :
    Online EndsStmt (terminated expression wanted tokens before build) lexemes := by
  rcases terminated_cases expression tokens lexemes with
    ⟨fault, hread⟩ | ⟨expr, rest, hread, hends⟩ | ⟨expr, next, rest, hread, hnext⟩
  · exact terminated_online_of_error h hnewline hread
  · exact terminated_online_of_ok h hnewline hread hends
  · exact terminated_online_of_refuse h hread hnext

end Terminated

/-- A statement in front of the rest of a block. -/
def consBody (statement : Parser Stmt) (first : Stmt) : Parser (List Stmt) :=
  andThen (body statement) fun others rest => .ok (first :: others, rest)

/-- At the end of the lexemes, a block can be closed behind a newline. -/
theorem consBody_closes (statement : Parser Stmt) (first : Stmt) :
    Closes EndsStmt (fun _ => True) (consBody statement first) where
  isOpen := .inr ⟨.closeBlock, andThen_of_error body_nil⟩
  finish := by
    refine ⟨[lexemeOf .newline, lexemeOf .closeBrace], [first], fun rest _ => ⟨.inr rfl, ?_⟩⟩
    have hbody :
        body statement (lexemeOf .newline :: lexemeOf .closeBrace :: rest) = .ok ([], rest) := by
      rw [body_newline rfl, body_close rfl]
    exact andThen_of_ok hbody
  atEnd hok := by
    rw [consBody, andThen_of_error body_nil] at hok
    cases hok

/-- Reading the inside of a block is decided from left to right if reading its statements is. -/
theorem body_online {statement : Parser Stmt} (hconsumes : Consumes statement)
    (hstatement : ∀ lexeme rest, Online EndsStmt statement (lexeme :: rest)) (lexemes : List Lexeme) :
    Online (fun _ => True) (body statement) lexemes := by
  induction lexemes using row_induction hconsumes with
  | nil =>
    refine ⟨fun hok => ?_, fun hok => ?_, fun herror hculprit => ?_, fun _ => ?_⟩
    · rw [body_nil] at hok
      cases hok
    · rw [body_nil] at hok
      cases hok
    · rw [body_nil] at herror
      cases herror
      cases hculprit
    -- a closing brace completes the block
    · exact ⟨[lexemeOf .closeBrace], [], fun _ _ => body_close rfl⟩
  | newline lexeme rest htoken ih => exact .cons (fun _ => body_newline htoken) ih
  | step lexeme rest hnewline ih =>
    by_cases hclose : lexeme.token = .closeBrace
    · exact .cons (fun _ => body_close hclose) (online_pure _ _ _)
    · have hrow : Online (fun _ => True) (andThen statement (consBody statement)) (lexeme :: rest) :=
        (hstatement lexeme rest).andThen (fun first after hfirst => (ih first after hfirst).map _)
          (consBody_closes statement)
      exact hrow.congr (fun _ => body_statement hconsumes hnewline hclose)
        (.inr ⟨.closeBlock, body_nil⟩) fun _ _ _ hok => body_consumes _ _ _ _ hok

/-- A block is a brace and the inside of a block. -/
theorem block_eq_andThen (origin : Origin) (wanted : Expectation) (statement : Parser Stmt) :
    block origin wanted statement =
      andThen (expect wanted .openBrace) fun opening =>
        andThen (body statement) fun row rest => .ok (.block row (origin.place opening), rest) := by
  funext lexemes
  rfl

/-- Reading a block is decided from left to right if reading its statements is. -/
theorem block_online (origin : Origin) (wanted : Expectation) {statement : Parser Stmt}
    (hconsumes : Consumes statement)
    (hstatement : ∀ lexeme rest, Online EndsStmt statement (lexeme :: rest)) (lexemes : List Lexeme) :
    Online (fun _ => True) (block origin wanted statement) lexemes := by
  rw [block_eq_andThen]
  refine (expect_online (fun _ => True) wanted .openBrace lexemes).andThen
    (fun opening rest _ => (body_online hconsumes hstatement rest).map _) fun opening => ⟨?_, ?_, ?_⟩
  · exact .inr ⟨.closeBlock, andThen_of_error body_nil⟩
  · exact ⟨[lexemeOf .closeBrace], _, fun _ _ => ⟨trivial, andThen_of_ok (body_close rfl)⟩⟩
  · exact fun _ _ _ => trivial

/-- What may stand behind the block of a condition: an alternative, or nothing of the statement. -/
def alternative (origin : Origin) (place : Option Position) (statement : Parser Stmt)
    (condition : Expr) (body : Stmt) : Parser Stmt := fun lexemes =>
  match lexemes with
  | [] => .ok (.cond condition body place, [])
  | lexeme :: after =>
    if lexeme.token = .keyword .otherwise then
      andThen (block origin .bodyOfAlternative statement)
        (fun other rest => .ok (.condElse condition body other place, rest)) after
    else .ok (.cond condition body place, lexeme :: after)

/-- A conditional statement is a condition, a block and perhaps an alternative. -/
theorem conditional_eq_andThen (origin : Origin) (place : Option Position)
    (expression : Level → Parser Expr) (statement : Parser Stmt) :
    conditional origin place expression statement =
      andThen (expression .lowest) fun condition =>
        andThen (block origin .bodyOfCondition statement) fun body =>
          alternative origin place statement condition body := by
  funext lexemes
  rfl

section Alternative

variable (origin : Origin) (place : Option Position) (statement : Parser Stmt) (condition : Expr)
  (body : Stmt)

/-- Without its word in front, there is no alternative. -/
theorem alternative_stay {lexemes : List Lexeme}
    (h : nextToken lexemes ≠ some (.keyword .otherwise)) :
    alternative origin place statement condition body lexemes =
      .ok (.cond condition body place, lexemes) := by
  cases lexemes with
  | nil => rfl
  | cons lexeme after => exact if_neg fun htoken => h (by rw [nextToken_cons, htoken])

/-- What ends a statement is not the word for another body. -/
theorem EndsStmt.ne_otherwise {lexemes : List Lexeme} (h : EndsStmt lexemes) :
    nextToken lexemes ≠ some (.keyword .otherwise) := by
  intro hother
  rcases h with h | h <;> rw [hother] at h <;> cases h

/-- Reading an alternative is decided from left to right if reading statements is. -/
theorem alternative_online (hconsumes : Consumes statement)
    (hstatement : ∀ lexeme rest, Online EndsStmt statement (lexeme :: rest)) (lexemes : List Lexeme) :
    Online EndsStmt (alternative origin place statement condition body) lexemes := by
  by_cases hother : nextToken lexemes = some (.keyword .otherwise)
  · cases lexemes with
    | nil => cases hother
    | cons lexeme after =>
      have hblock := block_online origin .bodyOfAlternative hconsumes hstatement after
      refine .cons (fun rest => if_pos (Option.some.inj hother)) (hblock.andThen
        (fun other rest _ => online_pure EndsStmt (Stmt.condElse condition body other place) rest)
        fun other => ⟨.inl ⟨_, rfl⟩, ⟨[], _, fun _ _ => ⟨trivial, rfl⟩⟩, fun _ _ _ => trivial⟩)
  -- nothing is read, unless the word for another body is next
  · refine online_stay (alternative_stay origin place statement condition body hother) ?_ ?_
    · rintro next rest rfl rest' (rfl | ⟨behind, rfl⟩)
      · exact alternative_stay origin place statement condition body nofun
      · exact alternative_stay origin place statement condition body hother
    · exact fun _ rest hrest =>
        alternative_stay origin place statement condition body hrest.ne_otherwise

/-- At the end of the lexemes, a condition can be given an empty block. -/
theorem bodyOfCondition_closes :
    Closes EndsExpr EndsStmt (andThen (block origin .bodyOfCondition statement) fun body =>
      alternative origin place statement condition body) where
  isOpen := .inr ⟨.bodyOfCondition, rfl⟩
  finish := by
    -- an empty block is the shortest way to complete the statement
    have hblock : ∀ rest, block origin .bodyOfCondition statement
        (lexemeOf .openBrace :: lexemeOf .closeBrace :: rest) =
          .ok (.block [] (origin.place (lexemeOf .openBrace)), rest) := by
      intro rest
      rw [block_eq_andThen, andThen_of_ok (expect_lexemeOf _ _ _), andThen_of_ok (body_close rfl)]
    exact ⟨[lexemeOf .openBrace, lexemeOf .closeBrace], _, fun rest hrest => ⟨nofun,
      (andThen_of_ok (hblock rest)).trans
        (alternative_stay origin place statement condition _ hrest.ne_otherwise)⟩⟩
  atEnd := nofun

end Alternative

/-- Reading a conditional statement is decided from left to right if reading its condition and
statements is. -/
theorem conditional_online (origin : Origin) (place : Option Position)
    {expression : Level → Parser Expr} {statement : Parser Stmt} (hconsumes : Consumes statement)
    (hexpression : ∀ level lexemes, Online EndsExpr (expression level) lexemes)
    (hstatement : ∀ lexeme rest, Online EndsStmt statement (lexeme :: rest)) (lexemes : List Lexeme) :
    Online EndsStmt (conditional origin place expression statement) lexemes := by
  rw [conditional_eq_andThen]
  refine (hexpression .lowest lexemes).andThen (fun condition rest _ => ?_)
    (bodyOfCondition_closes origin place statement)
  refine (block_online origin .bodyOfCondition hconsumes hstatement rest).andThen
    (fun body after _ => alternative_online origin place statement condition body hconsumes
      hstatement after) fun body => ⟨.inl ⟨_, rfl⟩, ?_, fun _ _ _ => trivial⟩
  exact ⟨[], _, fun rest hrest => ⟨trivial,
    alternative_stay origin place statement condition body hrest.ne_otherwise⟩⟩

/-- Reading a statement is decided from left to right, where there is one to read. -/
theorem statement_online (origin : Origin) (limit : Nat) (lexeme : Lexeme) (rest : List Lexeme) :
    Online EndsStmt (statement origin limit) (lexeme :: rest) := by
  induction limit generalizing lexeme rest with
  | zero => exact online_tooDeep _ rfl
  | succ limit ih =>
    have hexpression := expression_online origin limit
    have hopen : IsOpen (statement origin (limit + 1) []) := .inr ⟨.expression, rfl⟩
    rcases statement_forms lexeme.token with htoken | htoken | htoken | htoken | htoken
    · exact .cons (fun rest => statement_print rest htoken)
        (terminated_online (hexpression .lowest rest) (by decide))
    · exact .cons (fun rest => statement_ret rest htoken)
        (terminated_online (hexpression .lowest rest) (by decide))
    · exact .cons (fun rest => statement_cond rest htoken)
        (conditional_online origin _ (statement_consumes origin limit) hexpression ih rest)
    · exact online_refuse _ (fun rest => statement_unsupported rest htoken) rfl hopen rest
    -- the statement keeps the place of its first lexeme, so the parsers agree behind that one only
    · have hread := (hexpression .lowest (lexeme :: rest)).map
        fun expr => Stmt.expression expr (origin.place lexeme)
      exact (hread.mono fun _ => EndsStmt.endsExpr).congr
        (fun rest => statement_expression rest htoken) hopen
        fun _ _ _ hok => statement_consumes _ _ _ _ _ hok

/-! ## Programs -/

/-- Statements up to the end, as a parser that leaves nothing over. -/
def toEnd (statement : Parser Stmt) : Parser (List Stmt) := fun lexemes =>
  (statements statement lexemes).bind fun row => .ok (row, [])

/-- At the end the program is empty. -/
theorem toEnd_nil (statement : Parser Stmt) : toEnd statement [] = .ok ([], []) := by
  rw [toEnd, statements_nil]
  rfl

/-- A statement in front of the rest of a program. -/
def consToEnd (statement : Parser Stmt) (first : Stmt) : Parser (List Stmt) :=
  andThen (toEnd statement) fun others rest => .ok (first :: others, rest)

/-- In front of a statement, a program is that statement and the rest. -/
theorem toEnd_statement {statement : Parser Stmt} (hconsumes : Consumes statement) {lexeme : Lexeme}
    (hnewline : lexeme.token ≠ .newline) (rest : List Lexeme) :
    toEnd statement (lexeme :: rest) =
      andThen statement (consToEnd statement) (lexeme :: rest) := by
  rw [toEnd, statements_statement hconsumes hnewline, andThen]
  cases statement (lexeme :: rest) with
  | error fault => rfl
  | ok found =>
    show ((statements statement found.2).bind _).bind _ =
      ((statements statement found.2).bind _).bind _
    cases statements statement found.2 with
    | error fault => rfl
    | ok row => rfl

/-- At the end of the lexemes, a program is complete. -/
theorem consToEnd_closes (statement : Parser Stmt) (first : Stmt) :
    Closes EndsStmt (· = []) (consToEnd statement first) := by
  have hread : consToEnd statement first [] = .ok ([first], []) := andThen_of_ok (toEnd_nil statement)
  refine ⟨.inl ⟨_, hread⟩, ⟨[], [first], ?_⟩, ?_⟩
  · rintro rest rfl
    exact ⟨.inl rfl, hread⟩
  · rintro result - rest rfl
    exact .inl rfl

/-- Reading a program is decided from left to right if reading its statements is. -/
theorem toEnd_online {statement : Parser Stmt} (hconsumes : Consumes statement)
    (hstatement : ∀ lexeme rest, Online EndsStmt statement (lexeme :: rest)) (lexemes : List Lexeme) :
    Online (· = []) (toEnd statement) lexemes := by
  induction lexemes using row_induction hconsumes with
  | nil =>
    refine online_stay (toEnd_nil statement) nofun ?_
    rintro - rest rfl
    exact toEnd_nil statement
  | newline lexeme rest htoken ih =>
    exact .cons (fun rest => by rw [toEnd, statements_newline htoken, toEnd]) ih
  | step lexeme rest hnewline ih =>
    -- the first statement decides up to its end, and the rest of the program behind it
    have hrow : Online (· = []) (andThen statement (consToEnd statement)) (lexeme :: rest) :=
      (hstatement lexeme rest).andThen (fun first after hfirst => (ih first after hfirst).map _)
        (consToEnd_closes statement)
    refine hrow.congr (toEnd_statement hconsumes hnewline) (.inl ⟨[], toEnd_nil statement⟩) ?_
    intro row next behind hok
    obtain ⟨_, -, hresult⟩ := bind_eq_ok hok
    cases hresult

/-- Some lexemes can follow a list of lexemes so that a program is read. -/
def IsViable (origin : Origin) (limit : Nat) (lexemes : List Lexeme) : Prop :=
  ∃ more program, ofLexemes origin limit (lexemes ++ more) = .ok program

/-- As a parser, a program succeeds just if its statements are read to the end. -/
theorem toEnd_eq_ok_iff {statement : Parser Stmt} {lexemes : List Lexeme} {program : List Stmt} :
    toEnd statement lexemes = .ok (program, []) ↔ statements statement lexemes = .ok program := by
  rw [toEnd]
  cases statements statement lexemes with
  | error fault => exact ⟨nofun, nofun⟩
  | ok row =>
    constructor
    · rintro ⟨⟩
      rfl
    · rintro ⟨⟩
      rfl

/-- As a parser, a program fails just as its statements do. -/
theorem toEnd_eq_error_iff {statement : Parser Stmt} {lexemes : List Lexeme} {fault : ParseFault} :
    toEnd statement lexemes = .error fault ↔ statements statement lexemes = .error fault := by
  rw [toEnd]
  cases statements statement lexemes with
  | error fault' =>
    constructor
    · rintro ⟨⟩
      rfl
    · rintro ⟨⟩
      rfl
  | ok row => exact ⟨nofun, nofun⟩

section Viable

variable {origin : Origin} {limit : Nat} {lexemes : List Lexeme}

/-- What is read, or only incomplete, is viable. -/
theorem isViable_of_isOpen (h : IsOpen (toEnd (statement origin limit) lexemes)) :
    IsViable origin limit lexemes := by
  rcases h with ⟨program, hprogram⟩ | ⟨wanted, hwanted⟩
  · exact ⟨[], program, by rw [List.append_nil]; exact toEnd_eq_ok_iff.mp hprogram⟩
  · have honline :=
      toEnd_online (statement_consumes origin limit) (statement_online origin limit) lexemes
    obtain ⟨more, program, hmore⟩ := honline.incomplete hwanted
    have hread := hmore [] rfl
    rw [List.append_nil] at hread
    exact ⟨more, program, toEnd_eq_ok_iff.mp hread⟩

/-- A lexeme that is refused stands behind a viable list, and no program begins with both. -/
theorem exists_culprit {fault : ParseFault} {found : Lexeme}
    (h : ofLexemes origin limit lexemes = .error fault) (hculprit : fault.culprit? = some found) :
    ∃ used rest, lexemes = used ++ found :: rest ∧ IsViable origin limit used ∧
      ∀ more, ofLexemes origin limit (used ++ found :: more) = .error fault := by
  have honline := toEnd_online (statement_consumes origin limit) (statement_online origin limit) lexemes
  obtain ⟨used, rest, heq, hstuck, hopen⟩ := honline.stuck (toEnd_eq_error_iff.mpr h) hculprit
  exact ⟨used, rest, heq, isViable_of_isOpen hopen, fun more => toEnd_eq_error_iff.mp (hstuck more)⟩

/-- What is refused for a lexeme is refused under every limit that is not too low. -/
theorem ne_ok_of_culprit {fault : ParseFault} {found : Lexeme}
    (h : ofLexemes origin limit lexemes = .error fault) (hculprit : fault.culprit? = some found)
    (limit' : Nat) (program : List Stmt) : ofLexemes origin limit' lexemes ≠ .ok program := by
  intro hread
  -- under the higher of both limits, the lexemes would be both refused and accepted
  have hrefused := ofLexemes_settles origin (Nat.le_max_left limit limit') lexemes
    (by rw [h]; rintro ⟨⟩; cases hculprit)
  have haccepted := ofLexemes_settles origin (Nat.le_max_right limit limit') lexemes
    (by rw [hread]; exact nofun)
  rw [haccepted, hread, h] at hrefused
  cases hrefused

end Viable

/-- **The viable prefix law.** If the lexemes end too early, more of them make a program. If one is
refused, then those before it are the beginning of a program, and together with it they are the
beginning of none, whatever follows and however deep the nesting may be. -/
theorem viable_of_ofLexemes_error (origin : Origin) (limit : Nat) (lexemes : List Lexeme)
    (fault : ParseFault) (h : ofLexemes origin limit lexemes = .error fault) :
    (∀ wanted, fault = .incomplete wanted → IsViable origin limit lexemes) ∧
    (∀ found, fault.culprit? = some found → ∃ index, lexemes[index]? = some found ∧
      IsViable origin limit (lexemes.take index) ∧
      ∀ limit', ¬ IsViable origin limit' (lexemes.take (index + 1))) := by
  constructor
  · rintro wanted rfl
    exact isViable_of_isOpen (.inr ⟨wanted, toEnd_eq_error_iff.mpr h⟩)
  · intro found hculprit
    -- the refused lexeme stands behind the part that can still be completed
    obtain ⟨used, rest, rfl, hviable, hrefused⟩ := exists_culprit h hculprit
    refine ⟨used.length, by simp, by simpa using hviable, ?_⟩
    rintro limit' ⟨more, program, hread⟩
    rw [List.take_length_add_append, List.append_assoc] at hread
    exact ne_ok_of_culprit (hrefused more) hculprit limit' program hread

/-- `if a { return b }` is refused at its last brace, since a line has to end before it. -/
theorem viable_before_brace_behind_return :
    let lexemes := [.keyword .cond, .name "a", .openBrace, .keyword .ret, .name "b",
      .closeBrace].map lexemeOf
    ofLexemes ⟨none, 0⟩ 9 lexemes =
        .error (.unexpected (.endOfReturn (.name "b")) (lexemeOf .closeBrace)) ∧
      ∃ index, lexemes[index]? = some (lexemeOf .closeBrace) ∧
        IsViable ⟨none, 0⟩ 9 (lexemes.take index) ∧
        ∀ limit', ¬ IsViable ⟨none, 0⟩ limit' (lexemes.take (index + 1)) := by
  intro lexemes
  have hrefused : ofLexemes ⟨none, 0⟩ 9 lexemes =
      .error (.unexpected (.endOfReturn (.name "b")) (lexemeOf .closeBrace)) := by cbv
  exact ⟨hrefused, (viable_of_ofLexemes_error ⟨none, 0⟩ 9 lexemes _ hrefused).2 _ rfl⟩

end Program

end Scriptlet
