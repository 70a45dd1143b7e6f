import Scriptlet.Proofs.Relocation
import Scriptlet.Proofs.Rereading
import Scriptlet.Proofs.Scanning
import Scriptlet.Proofs.ViablePrefix

/-! # Reading texts put together

A text behind another one is read into the trees it has by itself, relocated. The first text is read
as it is by itself, if it ends with a newline and outside of strings: its last statement then cannot
take anything from the second. -/

namespace Scriptlet.Program

/-! ## Reading further on -/

/-- Moving lexemes agrees with a relocation of what is read from them. -/
structure Shifts (shift : Lexeme → Lexeme) (move : Relocation) (origin origin' : Origin) : Prop where
  /-- Tokens stay. -/
  token : ∀ lexeme, (shift lexeme).token = lexeme.token
  /-- Positions are relocated. -/
  place : ∀ lexeme,
    origin'.place (shift lexeme) = (origin.place lexeme).map (Position.relocate move)
  /-- Literals are relocated. -/
  literal : ∀ content lexeme,
    origin'.literal content (shift lexeme) = (origin.literal content lexeme).relocate move

section Shifts

variable {shift : Lexeme → Lexeme} {move : Relocation} {origin origin' : Origin}

/-- A relocation makes what is read from moved lexemes alike. -/
theorem Shifts.transports (h : Shifts shift move origin origin') :
    Transports move.likeness shift origin origin' where
  token := h.token
  place lexeme := rel_place_iff.2 (h.place lexeme)
  literal content lexeme := StringValue.like_iff.2 (h.literal content lexeme)
  name _ := trivial

/-- A program further on is read into the relocated program. -/
theorem Shifts.ofLexemes (h : Shifts shift move origin origin') {limit : Nat} {lexemes : List Lexeme}
    {program : List Stmt} (hread : ofLexemes origin limit lexemes = .ok program) :
    Program.ofLexemes origin' limit (lexemes.map shift) = .ok (Stmt.relocateAll move program) := by
  have hcorresponds := h.transports.ofLexemes limit lexemes
  rw [hread] at hcorresponds
  generalize Program.ofLexemes origin' limit (lexemes.map shift) = answer at hcorresponds ⊢
  cases hcorresponds with
  | ok hlike => rw [hlike.eq_relocateAll]

end Shifts

/-! ## The end of a text -/

/-- Lexemes of which there are none or of which the last is a newline. -/
def EndsRow (lexemes : List Lexeme) : Prop :=
  ∀ last, lexemes.getLast? = some last → last.token = .newline

/-- The end of a row of lexemes ends like the whole. -/
theorem EndsRow.of_append {before behind : List Lexeme} (h : EndsRow (before ++ behind)) :
    EndsRow behind := by
  intro last hlast
  apply h
  rw [List.getLast?_append, hlast, Option.some_or]

/-- Lexemes of which the last is no newline. -/
def EndsInside (lexemes : List Lexeme) : Prop :=
  ∃ last, lexemes.getLast? = some last ∧ last.token ≠ .newline

/-- A lexeme that is no newline ends inside a line. -/
theorem endsInside_singleton {lexeme : Lexeme} (h : lexeme.token ≠ .newline) : EndsInside [lexeme] :=
  ⟨lexeme, rfl, h⟩

/-- What ends inside a line does so behind other lexemes. -/
theorem EndsInside.append {lexemes : List Lexeme} (h : EndsInside lexemes) (before : List Lexeme) :
    EndsInside (before ++ lexemes) := by
  obtain ⟨last, hlast, htoken⟩ := h
  exact ⟨last, by rw [List.getLast?_append, hlast, Option.some_or], htoken⟩

/-- What ends inside a line does so behind another lexeme. -/
theorem EndsInside.cons {lexemes : List Lexeme} (h : EndsInside lexemes) (first : Lexeme) :
    EndsInside (first :: lexemes) :=
  h.append [first]

/-- What ends inside a line does not end with a newline. -/
theorem EndsInside.not_endsRow {lexemes : List Lexeme} (h : EndsInside lexemes) :
    ¬ EndsRow lexemes := by
  obtain ⟨last, hlast, htoken⟩ := h
  exact fun hends => htoken (hends last hlast)

section Derivation

variable {origin : Origin}

/-- No expression ends with a newline. -/
theorem ExprDerivation.endsInside {rank : Nat} {lexemes : List Lexeme} {expr : Expr}
    (h : ExprDerivation origin rank lexemes expr) : EndsInside lexemes := by
  induction h with
  | name htoken => exact endsInside_singleton (by rw [htoken]; nofun)
  | number htoken => exact endsInside_singleton (by rw [htoken]; nofun)
  | text htoken => exact endsInside_singleton (by rw [htoken]; nofun)
  | group _ _ hclosing _ =>
    have hlast := endsInside_singleton (by rw [hclosing]; nofun)
    exact (hlast.append _).cons _
  | unary _ _ _ ih => exact ih.cons _
  | typeOf _ _ ih => exact ih.cons _
  | tighter _ _ _ ih => exact ih
  | binary _ _ _ _ _ _ _ _ ih => exact (ih.cons _).append _
  | assignment _ _ _ _ _ ih => exact (ih.cons _).append _

/-- A block ends with its brace. -/
theorem BlockDerivation.endsInside {lexemes : List Lexeme} {stmt : Stmt}
    (h : BlockDerivation origin lexemes stmt) : EndsInside lexemes := by
  cases h with
  | block _ _ hclosing =>
    have hlast := endsInside_singleton (by rw [hclosing]; nofun)
    exact (hlast.append _).cons _

/-- No statement ends with a newline. -/
theorem StmtDerivation.endsInside {lexemes : List Lexeme} {next : Option Token} {stmt : Stmt}
    (h : StmtDerivation origin lexemes next stmt) : EndsInside lexemes := by
  cases h with
  | print _ hexpr _ => exact hexpr.endsInside.cons _
  | ret _ hexpr _ => exact hexpr.endsInside.cons _
  | cond _ _ hbody => exact (hbody.endsInside.append _).cons _
  | condElse _ _ _ _ hother => exact (((hother.endsInside.cons _).append _).append _).cons _
  | expression hexpr _ => exact hexpr.endsInside

end Derivation

/-- A program whose lexemes end with a newline is read the same in front of others: when its last
statement is read, that newline still lies ahead, and nothing behind it is looked at. -/
theorem ofLexemes_append {origin : Origin} {limit : Nat} {lexemes : List Lexeme}
    {program : List Stmt} (hread : ofLexemes origin limit lexemes = .ok program)
    (hends : EndsRow lexemes) {behind : List Lexeme} {program' : List Stmt}
    (hread' : ofLexemes origin limit behind = .ok program') :
    ofLexemes origin limit (lexemes ++ behind) = .ok (program ++ program') := by
  have hconsumes := statement_consumes origin limit
  unfold ofLexemes at hread hread' ⊢
  induction lexemes using row_induction hconsumes generalizing program with
  | nil =>
    rw [statements_nil] at hread
    cases hread
    exact hread'
  | newline lexeme rest htoken ih =>
    rw [statements_newline htoken] at hread
    rw [List.cons_append, statements_newline htoken]
    rw [← List.singleton_append] at hends
    exact ih hread hends.of_append
  | step lexeme rest hnewline ih =>
    rw [statements_statement hconsumes hnewline] at hread
    obtain ⟨⟨first, after⟩, hfirst, hafter⟩ := bind_eq_ok hread
    obtain ⟨others, hothers, hrest⟩ := bind_eq_ok hafter
    cases hrest
    cases after with
    | nil =>
      -- the statement would have used the newline at the end
      obtain ⟨used, hused, hderivation⟩ := statement_reads origin limit _ _ _ hfirst
      rw [List.append_nil] at hused
      rw [hused] at hends
      exact absurd hends hderivation.endsInside.not_endsRow
    | cons next after =>
      -- something is left over, so what was read does not depend on what is put behind it
      obtain ⟨used, hused, hsame⟩ := (statement_online origin limit lexeme rest).ok hfirst
      have hfirst' := hsame (next :: after ++ behind) (.inr ⟨_, rfl⟩)
      rw [← List.append_assoc, ← hused, List.cons_append] at hfirst'
      rw [hused] at hends
      have hothers' := ih first _ hfirst hothers hends.of_append
      rw [List.cons_append, statements_statement hconsumes hnewline, hfirst']
      simp only [Except.bind, hothers']
      rfl

/-! ## Whole texts -/

section Source

variable {limit : Nat} {filename : Option String} {source next : String}

/-- The move of a text that stands behind others: its literals are read with the handles from
`firstHandle'` on in place of those from `firstHandle` on. -/
def moveBehind (firstHandle firstHandle' lines : Nat) : Relocation :=
  ⟨fun handle => handle + firstHandle' - firstHandle, lines⟩

/-- Lexemes behind others are read as in a text of their own, moved. -/
theorem shifts_behind (filename : Option String) (firstHandle firstHandle' characters lines : Nat) :
    Shifts (Lexeme.shift characters lines)
      (moveBehind firstHandle (firstHandle' + characters) lines)
      ⟨filename, firstHandle⟩ ⟨filename, firstHandle'⟩ where
  token _ := rfl
  place lexeme := by
    simp only [Origin.place, Lexeme.shift, Cursor.line_shift, Cursor.column_shift, Option.map_some,
      Position.relocate, moveBehind, Int.natCast_add]
  literal content lexeme := by
    simp only [Origin.literal, Lexeme.shift, Cursor.offset_shift, StringValue.relocate, moveBehind,
      StringValue.mk.injEq, true_and]
    omega

/-- Whether a text is a program does not depend on the handles set aside for it. -/
theorem exists_ofSource {firstHandle : Nat} {program : List Stmt}
    (h : ofSource limit filename firstHandle source = .ok program) (firstHandle' : Nat) :
    ∃ program', ofSource limit filename firstHandle' source = .ok program' := by
  -- a move by no characters and no lines changes the handles of the literals only
  have hshifts := shifts_behind filename firstHandle firstHandle' 0 0
  have hmoved := hshifts.ofLexemes (ofSource_eq_ok_iff.1 h)
  have hstay : Lexeme.shift 0 0 = id := rfl
  rw [hstay, List.map_id] at hmoved
  exact ⟨_, ofSource_eq_ok_iff.2 hmoved⟩

/-- **Reading texts put together.** Behind a text that ends with a newline, outside of strings, a
text is read into the program it is by itself, relocated. -/
theorem ofSource_append {firstHandle firstHandle' : Nat} {program program' : List Stmt}
    (hread : ofSource limit filename firstHandle source = .ok program)
    (hread' : ofSource limit filename firstHandle' next = .ok program')
    (hends : Token.EndsLine source.toList)
    (hclosed : (Token.scan source).2.offset = source.length) :
    ofSource limit filename firstHandle (source ++ next) =
      .ok (program ++ Stmt.relocateAll
        (moveBehind firstHandle' (firstHandle + source.length) (source.toList.count '\n'))
        program') := by
  rw [ofSource_eq_ok_iff] at hread hread' ⊢
  rw [Token.lexemes_append hends hclosed]
  have hmoved := (shifts_behind filename firstHandle' firstHandle source.length
    (source.toList.count '\n')).ofLexemes hread'
  exact ofLexemes_append hread (fun _ => Token.last_eq_newline hends hclosed) hmoved

end Source

end Scriptlet.Program
