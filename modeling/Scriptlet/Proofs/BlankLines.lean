import Scriptlet.Proofs.Handles
import Scriptlet.Proofs.Parsers
import Scriptlet.Proofs.Shapes

/-! # Blank texts

Between tokens only spaces and tabs are skipped; every other blank that is no newline is cut off as a
name of one character. So a text of nothing but blanks is a program, a row of names on their own, and
such a program prints nothing and binds nothing.

* `Token.isWord_of_isBlank`: blanks are cut into newlines and names.
* `Program.ofSource_blank`: a blank text is a program, never an incomplete one.
* `Session.run_blank`: running it changes no binding and prints nothing. -/

namespace Scriptlet

/-! ## Scanning -/

namespace Token

/-- A newline or a name. -/
def IsWord (token : Token) : Prop :=
  token = .newline ∨ ∃ spelling, token = .name spelling

/-- Numbers have no blanks. -/
theorem isNumeric_of_isBlank {c : Char} (h : Text.isBlank c = true) : Decimal.isNumeric c = false := by
  cases hnumeric : Decimal.isNumeric c with
  | false => rfl
  | true =>
    exfalso
    simp only [Decimal.isNumeric, Bool.or_eq_true, beq_iff_eq] at hnumeric
    rcases hnumeric with hdigit | rfl
    · simp only [Char.isDigit, Bool.and_eq_true, decide_eq_true_eq] at hdigit
      simp only [Text.isBlank, Bool.or_eq_true, Bool.and_eq_true, decide_eq_true_eq,
        beq_iff_eq] at h
      -- the digits lie between the control characters and the blanks beyond them
      have hlow : 48 ≤ c.toNat := hdigit.1
      have hhigh : c.toNat ≤ 57 := hdigit.2
      omega
    · cases h

/-- A character that is read first is that of every spelling in front. -/
theorem first_eq_of_prefix {first c : Char} {rest tail spelling : List Char}
    (hspelling : spelling = c :: tail) (h : spelling <+: first :: rest) : first = c := by
  rw [hspelling, List.cons_prefix_cons] at h
  exact h.1.symm

/-- Nothing but a newline or a name begins with a blank. -/
theorem shape_of_isBlank {first : Char} (hblank : Text.isBlank first = true)
    (hnewline : first ≠ '\n') (rest : List Char) {shape : List Char → Option (Token × Nat)}
    (hmem : shape ∈ shapes) : shape (first :: rest) = none := by
  cases hfound : shape (first :: rest) with
  | none => rfl
  | some found =>
    exfalso
    simp only [shapes, List.mem_cons, List.not_mem_nil, or_false] at hmem
    -- numbers, single characters, reserved words, operators and strings
    rcases hmem with rfl | rfl | rfl | rfl | rfl
    · have hrun : (first :: rest).takeWhile Decimal.isNumeric = [] := by
        rw [List.takeWhile_cons, isNumeric_of_isBlank hblank]
        rfl
      rw [number?, hrun] at hfound
      cases hfound
    · rcases single?_eq_some hfound with ⟨rfl, -⟩ | ⟨hbracket, -⟩
      · exact hnewline rfl
      · simp only [brackets, List.mem_cons, List.not_mem_nil, or_false, Prod.mk.injEq] at hbracket
        rcases hbracket with ⟨rfl, -⟩ | ⟨rfl, -⟩ | ⟨rfl, -⟩ | ⟨rfl, -⟩ <;> cases hblank
    · obtain ⟨word, -, hprefix⟩ := keyword?_eq_some hfound
      cases word <;> cases first_eq_of_prefix rfl hprefix <;> cases hblank
    · obtain ⟨op, -, hprefix⟩ := operator?_eq_some hfound
      cases op <;> cases first_eq_of_prefix rfl hprefix <;> cases hblank
    · have hquote : first ≠ '"' := fun h => by
        rw [h] at hblank
        cases hblank
      rw [text?_of_ne_quote hquote] at hfound
      cases hfound

/-- In front of blanks a blank that is no gap makes a token of one character. -/
theorem front_of_isBlank {first : Char} {rest : List Char} (hfirst : Text.isBlank first = true)
    (hrest : ∀ c ∈ rest, Text.isBlank c = true) :
    IsWord (front first rest).1 ∧ (front first rest).2 = 1 := by
  by_cases hnewline : first = '\n'
  · subst hnewline
    rw [front_newline]
    exact ⟨.inl rfl, rfl⟩
  · have hnone : shapes.findSome? (fun shape => shape (first :: rest)) = none :=
      List.findSome?_eq_none_iff.2 fun shape hmem => shape_of_isBlank hfirst hnewline rest hmem
    -- a blank that is no newline is a name, which the next blank ends
    have htail : rest.takeWhile (! Text.isBlank ·) = [] := by
      cases rest with
      | nil => rfl
      | cons next others =>
        rw [List.takeWhile_cons, hrest next List.mem_cons_self]
        rfl
    rw [front, hnone, Option.getD_none, nameFrom, htail]
    exact ⟨.inr ⟨_, rfl⟩, rfl⟩

/-- **Blanks are cut into newlines and names**, up to their end. -/
theorem isWord_of_isBlank {cursor : Cursor} {input : List Char}
    (h : ∀ c ∈ input, Text.isBlank c = true) :
    (∀ lexeme ∈ (scanFrom cursor input).1, IsWord lexeme.token) ∧ IsClosed cursor input := by
  induction cursor, input using scanFrom_induction with
  | nil cursor =>
    rw [IsClosed, scanFrom_nil]
    exact ⟨List.forall_mem_nil _, rfl⟩
  | gap cursor first rest hgap ih =>
    obtain ⟨hwords, hclosed⟩ := ih fun c hmem => h c (List.mem_cons_of_mem _ hmem)
    rw [IsClosed, Cursor.offset_step] at hclosed
    rw [IsClosed, scanFrom_gap hgap, List.length_cons]
    exact ⟨hwords, by omega⟩
  | token cursor first rest hgap ih =>
    have hrest : ∀ c ∈ rest, Text.isBlank c = true := fun c hmem => h c (List.mem_cons_of_mem _ hmem)
    -- a token of blanks has one character, so the induction goes on behind the first
    obtain ⟨hword, htaken⟩ := front_of_isBlank (h first List.mem_cons_self) hrest
    rw [htaken, List.drop_one, List.tail_cons] at ih
    obtain ⟨hwords, hclosed⟩ := ih hrest
    rw [IsClosed, offset_stopAfter] at hclosed
    rw [IsClosed, scanFrom_token hgap, htaken, List.length_cons]
    refine ⟨?_, ?_⟩
    · intro lexeme hmem
      rcases List.mem_cons.1 hmem with rfl | hmem
      · exact hword
      · exact hwords lexeme hmem
    · simp only [List.drop_one, List.tail_cons]
      omega

/-- The scan of a blank text ends where the text does. -/
theorem offset_scan_blank {text : String} (h : Text.isBlankText text = true) :
    (scan text).2.offset = text.length := by
  have hclosed : IsClosed {} text.toList := (isWord_of_isBlank (List.all_eq_true.1 h)).2
  rw [IsClosed, String.length_toList, Nat.zero_add] at hclosed
  exact hclosed

end Token

/-! ## Reading -/

/-- A name on its own. -/
def Stmt.IsName (stmt : Stmt) : Prop :=
  ∃ spelling place place', stmt = .expression (.name spelling place) place'

namespace Program

variable {origin : Origin}

/-- A name with no operator behind it is read as an expression of its own. -/
theorem expression_name {limit : Nat} {floor : Level} {lexeme : Lexeme} {spelling : String}
    {rest : List Lexeme} (htoken : lexeme.token = .name spelling)
    (hrest : ∀ op, nextToken rest ≠ some (.operator op)) :
    expression origin (limit + 1) floor (lexeme :: rest) =
      .ok (.name spelling (origin.place lexeme), rest) := by
  have hoperand : operand origin (expression origin limit) (lexeme :: rest) =
      .ok (.name spelling (origin.place lexeme), rest) := by
    simp only [operand, htoken]
  rw [expression]
  simp only [bind, hoperand, Except.bind]
  exact climb_stop origin (stops_of_ne_operator hrest)

/-- Newlines and names are a program of names on their own. -/
theorem ofLexemes_words {limit : Nat} (hlimit : 2 ≤ limit) {lexemes : List Lexeme}
    (h : ∀ lexeme ∈ lexemes, lexeme.token.IsWord) :
    ∃ program, ofLexemes origin limit lexemes = .ok program ∧ ∀ stmt ∈ program, stmt.IsName := by
  obtain ⟨limit, rfl⟩ := Nat.exists_eq_add_of_le' hlimit
  unfold ofLexemes
  induction lexemes with
  | nil => exact ⟨[], statements_nil, nofun⟩
  | cons lexeme rest ih =>
    obtain ⟨program, hprogram, hnames⟩ := ih fun other hmem => h other (List.mem_cons_of_mem _ hmem)
    rcases h lexeme List.mem_cons_self with htoken | ⟨spelling, htoken⟩
    · exact ⟨program, by rw [statements_newline htoken, hprogram], hnames⟩
    · -- a name is a statement by itself, since no operator follows
      have hrest : ∀ op, nextToken rest ≠ some (.operator op) := by
        intro op hop
        cases rest with
        | nil => cases hop
        | cons next others =>
          rw [nextToken_cons, Option.some.injEq] at hop
          rcases h next (List.mem_cons_of_mem _ List.mem_cons_self) with hnext | ⟨_, hnext⟩
          · rw [hnext] at hop
            cases hop
          · rw [hnext] at hop
            cases hop
      have hstatement : statement origin (limit + 2) (lexeme :: rest) =
          .ok (.expression (.name spelling (origin.place lexeme)) (origin.place lexeme), rest) := by
        rw [statement_expression rest (by rw [htoken]; rfl), andThen, expression_name htoken hrest]
        rfl
      refine ⟨.expression (.name spelling (origin.place lexeme)) (origin.place lexeme) :: program,
        ?_, ?_⟩
      · rw [statements_statement (statement_consumes origin _) (by rw [htoken]; nofun), hstatement]
        simp only [Except.bind, hprogram]
      · intro stmt hmem
        rcases List.mem_cons.1 hmem with rfl | hmem
        · exact ⟨_, _, _, rfl⟩
        · exact hnames stmt hmem

/-- **A blank text is a program** of names on their own. -/
theorem ofSource_blank {limit : Nat} (hlimit : 2 ≤ limit) (filename : Option String)
    (firstHandle : Nat) {text : String} (h : Text.isBlankText text = true) :
    ∃ program, ofSource limit filename firstHandle text = .ok program ∧
      ∀ stmt ∈ program, stmt.IsName := by
  have hwords : ∀ lexeme ∈ Token.lexemes text, lexeme.token.IsWord :=
    (Token.isWord_of_isBlank (List.all_eq_true.1 h)).1
  obtain ⟨program, hprogram, hnames⟩ := ofLexemes_words hlimit hwords
  exact ⟨program, ofSource_eq_ok_iff.2 hprogram, hnames⟩

end Program

/-! ## Running -/

/-- A machine that has neither bound nor printed nor made anything since it was at a start. -/
structure Machine.IsIdle (start machine : Machine) : Prop where
  bindings : machine.bindings = start.bindings
  nextHandle : machine.nextHandle = start.nextHandle
  printed : machine.printed = start.printed

namespace Run

variable {α β : Type} {start : Machine}

/-- A computation that returns and leaves a machine idle. -/
def Idles (start : Machine) (run : Run α) : Prop :=
  Triple start.IsIdle run (fun _ => start.IsIdle) fun _ _ => False

/-- A computation that only answers leaves a machine idle. -/
theorem idles_pure (result : α) : Idles start (pure result) :=
  triple_pure fun _ => id

/-- Two computations that leave a machine idle do so one after the other. -/
theorem Idles.bind {run : Run α} {next : α → Run β} (hrun : Idles start run)
    (hnext : ∀ result, Idles start (next result)) : Idles start (run >>= next) :=
  Triple.bind hrun hnext

/-- To note an event that prints nothing leaves a machine idle. -/
theorem idles_record {event : Event} (h : event.outputText = "") : Idles start (record event) := by
  refine triple_modify fun machine hidle => ⟨hidle.bindings, hidle.nextHandle, ?_⟩
  rw [← hidle.printed]
  simp only [Machine.printed, List.map_append, List.map_cons, h, List.map_nil, String.join_append]
  simp

end Run

open Run

namespace Stmt

variable {settings : Settings} {start : Machine}

/-- To trace a name leaves a machine idle. -/
theorem idles_trace (hlimit : 2 ≤ settings.limit) {stmt : Stmt} (h : stmt.IsName) :
    Idles start (stmt.trace settings) := by
  obtain ⟨spelling, place, place', rfl⟩ := h
  have hdepth : ¬ settings.limit < (Stmt.expression (.name spelling place) place').depth :=
    Nat.not_lt.2 hlimit
  refine Triple.bind (triple_get fun _ => id) fun machine => ?_
  simp only [if_neg hdepth]
  split
  · exact Idles.bind (idles_record rfl) fun _ => idles_record rfl
  · exact idles_pure _

/-- To execute a name as a statement leaves a machine idle. -/
theorem idles_execute (hlimit : 2 ≤ settings.limit) {stmt : Stmt} (h : stmt.IsName) :
    Idles start (EStateM.adaptExcept (Halt.settle stmt) (stmt.execute settings)) := by
  obtain ⟨spelling, place, place', rfl⟩ := h
  have hdepth : ¬ settings.limit < (Expr.name spelling place).depth :=
    Nat.not_lt.2 (Nat.le_trans (Nat.le_succ 1) hlimit)
  rw [execute, Expr.evalWithin, if_neg hdepth, Expr.eval]
  refine Triple.adaptExcept (Triple.bind (Triple.adaptExcept ?_) fun value => idles_pure _)
  exact Idles.bind (triple_get fun _ => id) fun machine => idles_pure _

/-- Names on their own do nothing. -/
theorem idles_executeAll (hlimit : 2 ≤ settings.limit) {program : List Stmt}
    (h : ∀ stmt ∈ program, stmt.IsName) : Idles start (executeAll settings program) := by
  induction program with
  | nil =>
    rw [executeAll]
    exact idles_pure _
  | cons first rest ih =>
    have hfirst := h first List.mem_cons_self
    rw [executeAll]
    refine (idles_trace hlimit hfirst).bind fun _ => Idles.bind ?_ fun _ => ?_
    -- to count a statement touches neither the bindings nor what was printed
    · exact triple_modify fun machine hidle => ⟨hidle.bindings, hidle.nextHandle, hidle.printed⟩
    · refine (idles_execute hlimit hfirst).bind fun result => ?_
      exact (ih fun stmt hmem => h stmt (List.mem_cons_of_mem _ hmem)).bind fun _ => idles_pure _

end Stmt

/-- **A blank text does nothing**: it prints nothing and changes no binding. -/
theorem Session.run_blank (session : Session) {settings : Settings} (hlimit : 2 ≤ settings.limit)
    (filename : Option String) {text : String} (h : Text.isBlankText text = true) :
    ∃ result, (session.run settings filename text).outcome = .ok result ∧
      (session.run settings filename text).output = "" ∧
      (session.run settings filename text).session = session.afterReading text := by
  obtain ⟨program, hread, hnames⟩ :=
    Program.ofSource_blank hlimit filename session.nextHandle h
  have hidles : Idles (session.afterReading text).machine (Stmt.executeAll settings program) :=
    Stmt.idles_executeAll hlimit hnames
  have hend := hidles _ ⟨rfl, rfl, rfl⟩
  rw [run_of_ofSource hread, Session.execute]
  cases hrun : Stmt.executeAll settings program (session.afterReading text).machine with
  | error halt machine =>
    rw [hrun] at hend
    exact hend.elim
  | ok result machine =>
    rw [hrun] at hend
    refine ⟨result, rfl, hend.printed, ?_⟩
    simp only [Reply.ofRun, hend.bindings, hend.nextHandle]
    rfl

end Scriptlet
