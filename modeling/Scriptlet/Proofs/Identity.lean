import Scriptlet.Proofs.Tiling
import Scriptlet.Proofs.Trails

/-! # The identity of strings

What a session is asked to do, one request after the other, is written into a ledger: the strings of
the texts that are read, the names that are bound, and all evaluations. A request that fails adds what
came to light before. So a handle stands for one string over the whole life of a session: `===` tells
strings apart that were made apart, however equal they are, and nothing else.

* `Program.stringsAll_of_ofSource`: the strings of a program are the literals of its text.
* `Request`, `Request.sights`: what a session is asked for, and what that brings to light.
* `Request.ledger`, `Request.ledger_history`: one request and all of them keep the ledger.
* `handles_identify_strings`: what handles tell. -/

namespace Scriptlet

open Sight

/-! ## The strings of a text -/

namespace Program

/-- The string of a lexeme, if it is a literal. -/
def Origin.literal? (origin : Origin) (lexeme : Lexeme) : Option StringValue :=
  match lexeme.token with
  | .text content => some (origin.literal content lexeme)
  | _ => none

/-- The strings of lexemes, in order. -/
def Origin.literals (origin : Origin) (lexemes : List Lexeme) : List StringValue :=
  lexemes.filterMap origin.literal?

variable {origin : Origin}

/-- The literals of two rows of lexemes are found one row after the other. -/
theorem Origin.literals_append (before behind : List Lexeme) :
    origin.literals (before ++ behind) = origin.literals before ++ origin.literals behind :=
  List.filterMap_append

/-- A lexeme that is no literal has no string. -/
theorem Origin.literals_cons {lexeme : Lexeme} (h : ∀ content, lexeme.token ≠ .text content)
    (behind : List Lexeme) : origin.literals (lexeme :: behind) = origin.literals behind := by
  have hnone : origin.literal? lexeme = none := by
    unfold Origin.literal?
    split
    · rename_i content htoken
      exact absurd htoken (h content)
    · rfl
  exact List.filterMap_cons_none hnone

/-- The strings of an expression are the literals it was derived from. -/
theorem ExprDerivation.strings_eq {rank : Nat} {lexemes : List Lexeme} {expr : Expr}
    (h : ExprDerivation origin rank lexemes expr) : expr.strings = origin.literals lexemes := by
  -- only a text lexeme has a literal, and every node keeps the order of its lexemes
  induction h with
  | name htoken => rw [Origin.literals_cons (by simp [htoken])]; rfl
  | number htoken => rw [Origin.literals_cons (by simp [htoken])]; rfl
  | text htoken => simp [Expr.strings, Origin.literals, Origin.literal?, htoken]
  | group hopening _ hclosing ih =>
    rw [Origin.literals_cons (by simp [hopening]), Origin.literals_append, ih,
      Origin.literals_cons (by simp [hclosing])]
    exact (List.append_nil _).symm
  | unary htoken _ _ ih => rw [Origin.literals_cons (by simp [htoken]), ← ih]; rfl
  | typeOf htoken _ ih => rw [Origin.literals_cons (by simp [htoken]), ← ih]; rfl
  | tighter _ _ _ ih => exact ih
  | binary _ _ htoken _ _ _ _ ihleft ihright =>
    rw [Origin.literals_append, Origin.literals_cons (by simp [htoken]), ← ihleft, ← ihright]
    rfl
  | assignment htoken _ _ _ ihleft ihright =>
    rw [Origin.literals_append, Origin.literals_cons (by simp [htoken]), ← ihleft, ← ihright]
    rfl

mutual

/-- The strings of a statement that is derived are the literals of its lexemes, in order. -/
theorem StmtDerivation.strings_eq {lexemes : List Lexeme} {next : Option Token} {stmt : Stmt} :
    StmtDerivation origin lexemes next stmt → stmt.strings = origin.literals lexemes
  | .print htoken hexpr _ => by
    rw [Origin.literals_cons (by simp [htoken]), Stmt.strings, hexpr.strings_eq]
  | .ret htoken hexpr _ => by
    rw [Origin.literals_cons (by simp [htoken]), Stmt.strings, hexpr.strings_eq]
  | .cond htoken htest hbody => by
    rw [Origin.literals_cons (by simp [htoken]), Origin.literals_append, Stmt.strings,
      htest.strings_eq, hbody.strings_eq]
  | .condElse htoken htest hbody hmiddle hother => by
    rw [Origin.literals_cons (by simp [htoken]), Origin.literals_append, Origin.literals_append,
      Origin.literals_cons (by simp [hmiddle]), Stmt.strings, htest.strings_eq, hbody.strings_eq,
      hother.strings_eq, List.append_assoc]
  | .expression hexpr _ => by rw [Stmt.strings, hexpr.strings_eq]

/-- The strings of a block that is derived are the literals of its lexemes, in order. -/
theorem BlockDerivation.strings_eq {lexemes : List Lexeme} {stmt : Stmt} :
    BlockDerivation origin lexemes stmt → stmt.strings = origin.literals lexemes
  | .block hopening hinside hclosing => by
    rw [Origin.literals_cons (by simp [hopening]), Origin.literals_append,
      Origin.literals_cons (by simp [hclosing]), Stmt.strings, hinside.strings_eq]
    exact (List.append_nil _).symm

/-- The strings of a row of statements are the literals it was derived from. -/
theorem RowDerivation.strings_eq {lexemes : List Lexeme} {next : Option Token} {row : List Stmt} :
    RowDerivation origin lexemes next row → Stmt.stringsAll row = origin.literals lexemes
  | .nil => rfl
  | .newline htoken hrow => by rw [Origin.literals_cons (by simp [htoken]), hrow.strings_eq]
  | .cons hfirst hothers => by
    rw [Origin.literals_append, Stmt.stringsAll, hfirst.strings_eq, hothers.strings_eq]

end

section OfSource

variable {limit : Nat} {filename : Option String} {firstHandle : Nat} {source : String}
  {program : List Stmt}

/-- **The strings of a program are the literals of its text**, in the same order. -/
theorem stringsAll_of_ofSource (h : ofSource limit filename firstHandle source = .ok program) :
    Stmt.stringsAll program = Origin.literals ⟨filename, firstHandle⟩ (Token.lexemes source) :=
  RowDerivation.strings_eq (derivation_of_ofLexemes _ (ofSource_eq_ok_iff.1 h))

/-- A literal gets a handle as far behind the first as its lexeme is into the text. -/
theorem Origin.handle_of_literal? {lexeme : Lexeme} {value : StringValue}
    (h : origin.literal? lexeme = some value) :
    value.handle = origin.firstHandle + lexeme.start.offset := by
  unfold Origin.literal? at h
  split at h
  · cases h
    rfl
  · cases h

/-- The strings of a program have handles that were set aside for its text. -/
theorem handle_of_mem_stringsAll (h : ofSource limit filename firstHandle source = .ok program)
    {value : StringValue} (hvalue : value ∈ Stmt.stringsAll program) :
    firstHandle ≤ value.handle ∧ value.handle < firstHandle + source.length := by
  rw [stringsAll_of_ofSource h] at hvalue
  obtain ⟨lexeme, hmem, hliteral⟩ := List.mem_filterMap.1 hvalue
  have hstart := Token.start_lt_of_mem_lexemes hmem
  rw [Origin.handle_of_literal? hliteral]
  exact ⟨Nat.le_add_right _ _, Nat.add_lt_add_left hstart _⟩

/-- No two string nodes of a program share a handle: they were read from different places. -/
theorem pairwise_stringsAll (h : ofSource limit filename firstHandle source = .ok program) :
    (Stmt.stringsAll program).Pairwise fun string other => string.handle ≠ other.handle := by
  rw [stringsAll_of_ofSource h]
  have htiling := Token.lexemes_tiling source
  have hordered : (Token.lexemes source).Pairwise
      fun lexeme later => lexeme.start.offset < later.start.offset := by
    refine htiling.disjoint.imp_of_mem fun hmem _ hle => ?_
    have hnonempty := htiling.nonempty _ hmem
    omega
  refine hordered.filterMap _ fun lexeme later hlt string hstring other hother => ?_
  rw [Origin.handle_of_literal? hstring, Origin.handle_of_literal? hother]
  exact Nat.ne_of_lt (Nat.add_lt_add_left hlt _)

end OfSource

end Program

/-! ## Strings from outside -/

namespace Ledger

variable {past : List Sight} {session : Session}

/-- Strings that share no handle with one another or with those before may be made. -/
theorem makeAll {values : List StringValue} (h : Ledger past session)
    (hnew : ∀ value ∈ values, IsNew past value.handle)
    (hdistinct : values.Pairwise fun string other => string.handle ≠ other.handle)
    (hbelow : ∀ value ∈ values, value.handle < session.nextHandle) :
    Ledger (past ++ values.map .made) session := by
  induction values generalizing past with
  | nil =>
    rw [List.map_nil, List.append_nil]
    exact h
  | cons first rest ih =>
    obtain ⟨hfirst, hrest⟩ := List.pairwise_cons.1 hdistinct
    rw [List.forall_mem_cons] at hnew hbelow
    have hmade : Ledger (past ++ [.made first]) session := by
      refine h.concat (.made hnew.1) rfl (Nat.le_refl _) ?_
      rintro _ ⟨⟩
      exact hbelow.1
    rw [List.map_cons, List.append_cons]
    -- the first string is new to the others, since all handles differ
    refine ih hmade (fun value hvalue string hstring => ?_) hrest hbelow.2
    rcases mem_strings_concat.1 hstring with hstring | hstring
    · exact hnew.2 value hvalue string hstring
    · cases hstring
      exact hfirst value hvalue

/-- A text may be read. -/
theorem read (h : Ledger past session) {limit : Nat} {filename : Option String} {source : String}
    {program : List Stmt}
    (hread : Program.ofSource limit filename session.nextHandle source = .ok program) :
    Ledger (past ++ (Stmt.stringsAll program).map .made) (session.afterReading source) := by
  have hhandles : ∀ value ∈ Stmt.stringsAll program, session.nextHandle ≤ value.handle ∧
      value.handle < session.nextHandle + source.length :=
    fun _ hvalue => Program.handle_of_mem_stringsAll hread hvalue
  refine (h.wait (Nat.le_add_right _ source.length)).makeAll (fun value hvalue => ?_)
    (Program.pairwise_stringsAll hread) fun value hvalue => (hhandles value hvalue).2
  exact h.isNew (hhandles value hvalue).1

end Ledger

/-- What binding a name from outside brings to light: a string is made for it. -/
def Sight.given (name : String) (value : Value) : List Sight :=
  value.string?.toList.map Sight.made ++ [Sight.bound name value]

/-- A value from outside may be bound, if a string gets the next free handle. -/
theorem Ledger.given {past : List Sight} {session : Session} (h : Ledger past session) {value : Value}
    (hvalue : ∀ string ∈ value.string?, string.handle = session.nextHandle) (name : String) :
    Ledger (past ++ Sight.given name value)
      ⟨session.bindings.insert name value, session.nextHandle + 1⟩ := by
  -- a string from outside is made first, so it is known when it is bound
  have hmade : Ledger (past ++ value.string?.toList.map .made)
      ⟨session.bindings, session.nextHandle + 1⟩ := by
    refine (h.wait (Nat.le_succ _)).makeAll (fun string hstring => ?_) ?_ fun string hstring => ?_
    · rw [hvalue string (Option.mem_toList.1 hstring)]
      exact h.isNew (Nat.le_refl _)
    · cases value.string? with
      | none => exact .nil
      | some string => exact List.pairwise_singleton _ string
    · rw [hvalue string (Option.mem_toList.1 hstring)]
      exact Nat.lt_succ_self _
  have hknown : ∀ string ∈ value.string?,
      string ∈ strings (past ++ value.string?.toList.map .made) := by
    intro string hstring
    rw [strings_append]
    refine List.mem_append_right _ (List.mem_filterMap.2 ⟨.made string, ?_, rfl⟩)
    exact List.mem_map_of_mem (Option.mem_toList.2 hstring)
  rw [Sight.given, ← List.append_assoc]
  exact hmade.concat (.bound hknown) rfl (Nat.le_refl _) (hmade.below_of_known hknown)

/-- A string from outside gets the handle that is set aside for it. -/
theorem Given.handle_of_toValue {given : Given} {name : String} {handle : Nat} {value : Value}
    (h : given.toValue name handle = .ok value) :
    ∀ string ∈ value.string?, string.handle = handle := by
  intro string hstring
  cases given with
  | boolean => cases h; cases hstring
  | integer integer =>
    simp only [Given.toValue] at h
    split at h
    · cases h
    · cases h; cases hstring
  | number => cases h; cases hstring
  -- only a string has a handle, and it takes the one that is offered
  | string content =>
    cases h
    cases hstring
    rfl
  | other => cases h

/-- What the bindings that a session begins with bring to light. -/
def Sight.ofGiven (given : List (String × Given)) : List Sight :=
  match Given.convertAll 0 (Bindings.ofList given).entries with
  | .ok entries => entries.flatMap fun entry => Sight.given entry.1 entry.2
  | .error _ => []

/-- Values from outside may be bound one after the other. -/
theorem Ledger.convertAll {past : List Sight} {session : Session} {given : List (String × Given)}
    {entries : List (String × Value)} (h : Ledger past session)
    (hentries : Given.convertAll session.nextHandle given = .ok entries) :
    Ledger (past ++ entries.flatMap fun entry => Sight.given entry.1 entry.2)
      ⟨entries.foldl (fun bindings entry => bindings.insert entry.1 entry.2) session.bindings,
        session.nextHandle + given.length⟩ := by
  induction given generalizing past session entries with
  | nil =>
    cases hentries
    rw [List.flatMap_nil, List.append_nil]
    exact h
  | cons first rest ih =>
    obtain ⟨name, first⟩ := first
    simp only [Given.convertAll, bind, Except.bind] at hentries
    split at hentries
    · cases hentries
    · rename_i value hvalue
      split at hentries
      · cases hentries
      · rename_i others hothers
        cases hentries
        -- the induction goes on behind the first value, which has taken up the next handle
        have hfirst := h.given (Given.handle_of_toValue hvalue) name
        have hrest := ih hfirst hothers
        rw [List.flatMap_cons, ← List.append_assoc, List.length_cons, Nat.add_comm rest.length,
          ← Nat.add_assoc]
        exact hrest

/-- A session begins with a ledger. -/
theorem Ledger.ofGiven {given : List (String × Given)} {session : Session}
    (h : Session.ofGiven given = .ok session) : Ledger (Sight.ofGiven given) session := by
  have hempty : Ledger [] ⟨.empty, 0⟩ := ⟨.nil, rfl, nofun⟩
  simp only [Session.ofGiven, Bindings.ofGiven, bind, Except.bind] at h
  split at h
  · cases h
  · rename_i bindings hbindings
    split at hbindings
    · cases hbindings
    · rename_i entries hentries
      cases hbindings
      cases h
      have hall := hempty.convertAll hentries
      -- of two values for one name only one is bound, so handles may be left over
      have hlength := Bindings.length_foldl_le given .empty
      rw [Sight.ofGiven, hentries]
      rw [List.nil_append] at hall
      refine hall.wait ?_
      simpa [Bindings.ofList, Bindings.empty] using hlength

/-! ## Requests -/

/-- What a session is asked for. -/
inductive Request where
  /-- To read a text. -/
  | parse (limit : Nat) (filename : Option String) (source : String)
  /-- To read a text and run it. -/
  | run (settings : Settings) (filename : Option String) (source : String)
  /-- To run a program, be it one that was read and kept or one that was built outside. -/
  | execute (settings : Settings) (program : List Stmt)
  /-- To evaluate an expression. -/
  | evaluate (limit : Nat) (expr : Expr)
  /-- To read a text that has to be a single expression, and to evaluate it. -/
  | evaluateSource (limit : Nat) (source : String)
  /-- To bind a name to a value from outside. -/
  | define (name : String) (given : Given)
  /-- To bind a name to a string value that is there. -/
  | share (name : String) (value : StringValue)
  /-- To make a string value for a tree that is built outside. -/
  | make (content : String)

namespace Request

/-- The session after a request. -/
def serve : Request → Session → Session
  | .parse limit filename source, session => (session.parse limit filename source).session
  | .run settings filename source, session => (session.run settings filename source).session
  | .execute settings program, session => (session.execute settings program).session
  | .evaluate limit expr, session => (session.evaluate limit expr).session
  | .evaluateSource limit source, session => (session.evaluateSource limit source).session
  | .define name given, session => (session.define name given).session
  | .share name value, session =>
    { session with bindings := session.bindings.insert name (.string value) }
  | .make _, session => { session with nextHandle := session.nextHandle + 1 }

/-- The value that a request is answered with. -/
def result? : Request → Session → Option Value
  | .run settings filename source, session =>
    (session.run settings filename source).outcome.toOption.join
  | .execute settings program, session => (session.execute settings program).outcome.toOption.join
  | .evaluate limit expr, session => (session.evaluate limit expr).outcome.toOption
  | .evaluateSource limit source, session => (session.evaluateSource limit source).outcome.toOption
  | _, _ => none

/-- What comes to light when a text is read, and then whatever is done with the program. -/
def reading (limit : Nat) (filename : Option String) (source : String) (session : Session)
    (next : List Stmt → Session → List Sight) : List Sight :=
  match Program.ofSource limit filename session.nextHandle source with
  | .ok program =>
    (Stmt.stringsAll program).map .made ++ next program (session.afterReading source)
  | .error _ => []

/-- What a request brings to light. -/
def sights : Request → Session → List Sight
  | .parse limit filename source, session => reading limit filename source session fun _ _ => []
  | .run settings filename source, session =>
    reading settings.limit filename source session fun program session =>
      Stmt.trailAll settings program session.machine
  | .execute settings program, session => Stmt.trailAll settings program session.machine
  | .evaluate limit expr, session => expr.trailWithin limit session.machine
  | .evaluateSource limit source, session =>
    reading limit (some Session.expressionName) source session fun program session =>
      match program with
      | [.expression expr _] => expr.trailWithin limit session.machine
      | _ => []
  | .define name given, session =>
    match given.toValue name session.nextHandle with
    | .ok value => Sight.given name value
    | .error _ => []
  | .share name value, _ => [.bound name (.string value)]
  | .make content, session => [.made ⟨content, session.nextHandle⟩]

/-- The strings that are handed in with a request. -/
def strings : Request → List StringValue
  | .execute _ program => Stmt.stringsAll program
  | .evaluate _ expr => expr.strings
  | .share _ value => [value]
  | _ => []

/-- The session after requests in order. -/
def serveAll (session : Session) (requests : List Request) : Session :=
  requests.foldl (fun session request => request.serve session) session

/-- What requests in order bring to light. -/
def history (session : Session) : List Request → List Sight
  | [] => []
  | request :: rest => request.sights session ++ history (request.serve session) rest

/-- The values that requests in order are answered with. -/
def answers (session : Session) : List Request → List Value
  | [] => []
  | request :: rest => (request.result? session).toList ++ answers (request.serve session) rest

/-- Every string that is handed in with a request came to light before. -/
def AreFair (past : List Sight) (session : Session) : List Request → Prop
  | [] => True
  | request :: rest => request.strings ⊆ Sight.strings past ∧
    AreFair (past ++ request.sights session) (request.serve session) rest

section Serve

variable {past : List Sight} {session : Session}

/-- Executing a program keeps the ledger, and its result came to light. -/
theorem ledger_execute (h : Ledger past session) {program : List Stmt}
    (hknown : Stmt.stringsAll program ⊆ Sight.strings past) (settings : Settings) :
    Ledger (past ++ Stmt.trailAll settings program session.machine)
        (session.execute settings program).session ∧
      Stmt.IsShown (session.execute settings program).outcome.toOption.join
        (past ++ Stmt.trailAll settings program session.machine) := by
  have hlogs : Run.Logs (Stmt.stringsAll program) (fun _ => True) (Stmt.executeAll settings program)
      (Stmt.trailAll settings program) Stmt.IsShown :=
    Stmt.logs_executeAll program (List.Subset.refl _)
  have hrun := hlogs past session.machine h hknown trivial _ rfl
  rw [Session.execute]
  cases hfound : Stmt.executeAll settings program session.machine with
  | ok result machine =>
    rw [hfound] at hrun
    exact hrun
  | error halt machine =>
    rw [hfound] at hrun
    exact ⟨hrun, Stmt.isShown_none _⟩

/-- Evaluating an expression keeps the ledger, and its value came to light. -/
theorem ledger_evaluate (h : Ledger past session) {expr : Expr}
    (hknown : expr.strings ⊆ Sight.strings past) (limit : Nat) :
    Ledger (past ++ expr.trailWithin limit session.machine) (session.evaluate limit expr).session ∧
      Stmt.IsShown (session.evaluate limit expr).outcome.toOption
        (past ++ expr.trailWithin limit session.machine) := by
  have hlogs := Expr.logs_evalWithin (List.Subset.refl expr.strings) limit
  have hrun := hlogs past session.machine h hknown trivial _ rfl
  rw [Session.evaluate]
  cases hfound : expr.evalWithin limit session.machine with
  | ok value machine =>
    rw [hfound] at hrun
    refine ⟨hrun.1, ?_⟩
    rintro _ ⟨⟩
    exact hrun.2
  | error halt machine =>
    rw [hfound] at hrun
    exact ⟨hrun, Stmt.isShown_none _⟩

/-- The strings of a text that was read came to light. -/
theorem stringsAll_subset (past : List Sight) (program : List Stmt) :
    Stmt.stringsAll program ⊆ Sight.strings (past ++ (Stmt.stringsAll program).map .made) := by
  intro value hvalue
  rw [strings_append]
  exact List.mem_append_right _
    (List.mem_filterMap.2 ⟨.made value, List.mem_map_of_mem hvalue, rfl⟩)

/-- Reading and evaluating an expression keeps the ledger, and its value came to light. -/
theorem ledger_evaluateSource (h : Ledger past session) (limit : Nat) (source : String) :
    Ledger (past ++ (evaluateSource limit source).sights session)
        (session.evaluateSource limit source).session ∧
      Stmt.IsShown (session.evaluateSource limit source).outcome.toOption
        (past ++ (evaluateSource limit source).sights session) := by
  rw [sights, reading, Session.evaluateSource, Session.parse]
  cases hread : Program.ofSource limit (some Session.expressionName) session.nextHandle source with
  | error rejection =>
    dsimp only
    rw [List.append_nil]
    exact ⟨h.wait (Nat.le_add_right _ _), Stmt.isShown_none _⟩
  | ok program =>
    dsimp only
    rw [← List.append_assoc]
    split
    · rename_i expr place
      refine ledger_evaluate (h.read hread) (fun value hvalue => ?_) limit
      exact stringsAll_subset past _ (List.mem_append_left _ hvalue)
    -- a program that is no single expression is read and not run
    · rename_i hother
      rw [List.append_nil]
      split
      · rename_i expr place hprogram
        cases hprogram
        exact absurd rfl (hother expr place)
      · exact ⟨h.read hread, Stmt.isShown_none _⟩
      · rename_i hprogram
        cases hprogram

/-- **A request keeps the ledger**, whether it succeeds or fails, and the value it is answered with
came to light. -/
theorem ledger (request : Request) (h : Ledger past session)
    (hfair : request.strings ⊆ Sight.strings past) :
    Ledger (past ++ request.sights session) (request.serve session) ∧
      Stmt.IsShown (request.result? session) (past ++ request.sights session) := by
  cases request with
  | parse limit filename source =>
    refine ⟨?_, Stmt.isShown_none _⟩
    rw [sights, serve, reading, Session.parse]
    cases hread : Program.ofSource limit filename session.nextHandle source with
    | ok program =>
      dsimp only
      rw [List.append_nil]
      exact h.read hread
    | error rejection =>
      dsimp only
      rw [List.append_nil]
      exact h.wait (Nat.le_add_right _ _)
  | run settings filename source =>
    rw [sights, serve, result?, reading]
    cases hread : Program.ofSource settings.limit filename session.nextHandle source with
    | ok program =>
      dsimp only
      rw [Session.run_of_ofSource hread, ← List.append_assoc]
      exact ledger_execute (h.read hread) (stringsAll_subset past program) settings
    | error rejection =>
      dsimp only
      rw [Session.run_of_ofSource_error hread, List.append_nil]
      exact ⟨h.wait (Nat.le_add_right _ _), Stmt.isShown_none _⟩
  | execute settings program => exact ledger_execute h hfair settings
  | evaluate limit expr => exact ledger_evaluate h hfair limit
  | evaluateSource limit source => exact ledger_evaluateSource h limit source
  | define name given =>
    refine ⟨?_, Stmt.isShown_none _⟩
    rw [sights, serve, Session.define]
    cases hvalue : given.toValue name session.nextHandle with
    | ok value => exact h.given (Given.handle_of_toValue hvalue) name
    | error fault =>
      dsimp only
      rw [List.append_nil]
      exact h
  -- a string is only shared if it came to light before
  | share name value =>
    refine ⟨?_, Stmt.isShown_none _⟩
    have hknown : ∀ string ∈ (Value.string value).string?, string ∈ Sight.strings past := by
      rintro _ ⟨⟩
      exact hfair List.mem_cons_self
    exact h.concat (.bound hknown) rfl (Nat.le_refl _) (h.below_of_known hknown)
  | make content =>
    refine ⟨?_, Stmt.isShown_none _⟩
    refine h.concat (.made (h.isNew (Nat.le_refl _))) rfl (Nat.le_succ _) ?_
    rintro _ ⟨⟩
    exact Nat.lt_succ_self _

/-- **Requests in order keep the ledger**, and the values they are answered with came to light. -/
theorem ledger_history {requests : List Request} (h : Ledger past session)
    (hfair : AreFair past session requests) :
    Ledger (past ++ history session requests) (serveAll session requests) ∧
      answers session requests ⊆ (past ++ history session requests).map Sight.value := by
  induction requests generalizing past session with
  | nil =>
    rw [history, List.append_nil]
    exact ⟨h, List.nil_subset _⟩
  | cons request rest ih =>
    -- one request, and then the rest on what it leaves
    obtain ⟨hledger, hshown⟩ := request.ledger h hfair.1
    obtain ⟨hrest, hanswers⟩ := ih hledger hfair.2
    rw [history, answers, ← List.append_assoc, List.append_subset]
    refine ⟨hrest, fun value hvalue => ?_, hanswers⟩
    exact Stmt.isShown_append _ _ hshown value (Option.mem_toList.1 hvalue)

end Serve

end Request

/-! ## What handles tell -/

/-- An assignment to names one after the other, `a = b = right`; the names and the nodes have
positions. -/
def Expr.chain (right : Expr) : List (String × Option Position × Option Position) → Expr
  | [] => right
  | (spelling, place, place') :: rest =>
    .binary (.name spelling place) .assign (right.chain rest) place'

/-- For two strings `===` yields a truth value. -/
def StringValue.YieldsSame (string other : StringValue) (truth : Bool) : Prop :=
  Operator.same.binary (.string string) (.string other) = .ok (.boolean truth)

/-- Handles identify the strings that came to light. -/
structure HandlesIdentify (sights : List Sight) : Prop where
  /-- Strings with the same handle have the same content. -/
  content : ∀ string ∈ strings sights, ∀ other ∈ strings sights,
    string.handle = other.handle → string.content = other.content
  /-- Whenever `===` yields true, `==` does. -/
  equal : ∀ string ∈ strings sights, ∀ other ∈ strings sights, string.YieldsSame other true →
    Operator.equal.binary (.string string) (.string other) = .ok (.boolean true)
  /-- No two strings that came into being share a handle: neither two nodes of one text or of
  different texts, nor two results of `+` or `typeof`, nor one of each. -/
  distinct : (sights.filterMap Sight.makes?).Pairwise fun string other =>
    string.handle ≠ other.handle
  /-- Every string came into being at some point. -/
  origin : ∀ string ∈ strings sights, ∃ sight ∈ sights, sight.makes? = some string
  /-- A string node yields its own string whenever it is evaluated. -/
  node : ∀ (value : StringValue) (place : Option Position) (result : Value),
    Sight.evaluated (.string value place) result ∈ sights → result = .string value
  /-- A name yields the very value that it was bound to last, and zero if it never was. -/
  name : ∀ (before after : List Sight) (spelling : String) (place : Option Position) (result : Value),
    sights = before ++ Sight.evaluated (.name spelling place) result :: after →
    result = (replay before).read spelling
  /-- An assignment yields the very value of its right side, which was evaluated just before. -/
  assignment : ∀ (before after : List Sight) (spelling : String) (right : Expr)
    (place place' : Option Position) (result : Value),
    sights = before ++
      Sight.evaluated (.binary (.name spelling place) .assign right place') result :: after →
    before.getLast? = some (Sight.evaluated right result)
  /-- Afterwards all names of a chained assignment are bound to that value. -/
  chained : ∀ (before after : List Sight) (right : Expr)
    (targets : List (String × Option Position × Option Position)) (result : Value),
    sights = before ++ Sight.evaluated (right.chain targets) result :: after →
    ∀ target ∈ targets,
      (replay (before ++ [Sight.evaluated (right.chain targets) result])).read target.1 = result
  /-- A string that comes into being, as every result of `+` and `typeof` does, is not the same as
  any string before it, and later ones are the same only where it is passed on. -/
  new : ∀ (before after : List Sight) (sight : Sight) (string : StringValue),
    sights = before ++ sight :: after → sight.makes? = some string →
    (∀ other ∈ strings before, string.YieldsSame other false) ∧
    ∀ later ∈ after, ∀ other ∈ later.string?, string.YieldsSame other true →
      other = string ∧ later.makes? = none

namespace Sight

/-- For two strings `===` compares handles and nothing else. -/
theorem yieldsSame_iff {string other : StringValue} {truth : Bool} :
    string.YieldsSame other truth ↔ (string.handle == other.handle) = truth := by
  simp [StringValue.YieldsSame, Operator.binary, Operator.identical]

/-- In a chained assignment every name is bound to the value of the whole. -/
theorem AreAccounted.chained {right : Expr}
    {targets : List (String × Option Position × Option Position)}
    {before after : List Sight} {result : Value}
    (h : AreAccounted (before ++ .evaluated (.chain right targets) result :: after)) :
    ∀ target ∈ targets,
      (replay (before ++ [.evaluated (.chain right targets) result])).read target.1 = result := by
  induction targets generalizing before after with
  | nil => nofun
  | cons first rest ih =>
    obtain ⟨spelling, place, place'⟩ := first
    have haccounted := h.split.2
    -- an assignment passes on what was evaluated just before it: the assignment inside
    cases haccounted with
    | computed hexpr => cases hexpr
    | assign hlast =>
      obtain ⟨earlier, rfl⟩ := List.getLast?_eq_some_iff.1 hlast
      rw [List.append_assoc] at h
      have hrest := ih h
      intro target htarget
      rw [replay_concat, Expr.chain, Expr.rebind_assign rfl, Bindings.read, Bindings.get?_insert]
      by_cases hname : spelling = target.1
      · rw [if_pos hname]
        rfl
      · rw [if_neg hname]
        rcases List.mem_cons.1 htarget with rfl | htarget
        · exact absurd rfl hname
        · exact hrest target htarget

/-- **What handles tell**, from entries that are accounted for. -/
theorem AreAccounted.handlesIdentify {sights : List Sight} (h : AreAccounted sights) :
    HandlesIdentify sights where
  content string hstring other hother hhandle := by
    rw [h.eq_of_handle_eq hstring hother hhandle]
  equal string hstring other hother hsame := by
    rw [yieldsSame_iff, beq_iff_eq] at hsame
    rw [h.eq_of_handle_eq hstring hother hsame]
    simp [Operator.binary, Value.equal]
  distinct := h.pairwise_makes
  origin _ hstring := h.exists_makes hstring
  node value place result hmem := by
    obtain ⟨before, after, rfl⟩ := List.append_of_mem hmem
    -- what accounts for the entry leaves one way to its value
    have haccounted := h.split.2
    cases haccounted with
    | string => rfl
    | computed hexpr => cases hexpr
  name before after spelling place result hsights := by
    subst hsights
    have haccounted := h.split.2
    cases haccounted with
    | name => rfl
    | computed hexpr => cases hexpr
  assignment before after spelling right place place' result hsights := by
    subst hsights
    have haccounted := h.split.2
    cases haccounted with
    | assign hlast => exact hlast
    | computed hexpr => cases hexpr
  chained before after right targets result hsights := by
    subst hsights
    exact h.chained
  new before after sight string hsights hmakes := by
    subst hsights
    constructor
    · intro other hother
      rw [yieldsSame_iff, beq_eq_false_iff_ne]
      exact (h.isNew hmakes other hother).symm
    · intro later hlater other hother hsame
      rw [yieldsSame_iff, beq_iff_eq] at hsame
      obtain ⟨hnone, rfl⟩ := h.passed_on hmakes hlater hother hsame.symm
      exact ⟨rfl, hnone⟩

end Sight

/-- **Handles identify strings over the whole life of a session.** Let a session begin with bindings
from outside and serve any requests one after the other, some of which may fail, where the trees and
strings that are handed in hold only strings that came to light before. Then of all that came to
light, handles identify the strings; the names are bound to what came to light last for them, and no
request is answered with anything else. -/
theorem handles_identify_strings (given : List (String × Given)) (session : Session)
    (requests : List Request) (hstart : Session.ofGiven given = .ok session)
    (hfair : Request.AreFair (Sight.ofGiven given) session requests) :
    let sights := Sight.ofGiven given ++ Request.history session requests
    HandlesIdentify sights ∧
      (Request.serveAll session requests).bindings = replay sights ∧
      Request.answers session requests ⊆ sights.map Sight.value := by
  obtain ⟨hledger, hanswers⟩ := Request.ledger_history (.ofGiven hstart) hfair
  exact ⟨hledger.accounted.handlesIdentify, hledger.replayed, hanswers⟩

/-- A literal that is assigned to two names, joined with a string from outside, and evaluated again
in a tree that was built outside: three strings came into being, two of them with one content. -/
theorem handles_identify_strings_on_kept_literal :
    let given : List (String × Given) := [("u", .string "a")]
    let session : Session := ⟨.ofList [("u", .string ⟨"a", 0⟩)], 1⟩
    let requests : List Request :=
      [.run { limit := 9 } none "s = t = \"a\"",
        .evaluate 9 (.binary (.name "s" none) .plus (.name "u" none) none),
        .execute { limit := 9 }
          [.expression (.binary (.name "t" none) .same (.string ⟨"a", 9⟩ none) none) none]]
    let sights := Sight.ofGiven given ++ Request.history session requests
    sights.filterMap Sight.makes? = [⟨"a", 0⟩, ⟨"a", 9⟩, ⟨"aa", 12⟩] ∧
      HandlesIdentify sights ∧
      (Request.serveAll session requests).bindings = replay sights ∧
      Request.answers session requests = [.string ⟨"a", 9⟩, .string ⟨"aa", 12⟩, .boolean true] := by
  intro given session requests sights
  have hstart : Session.ofGiven given = .ok session := by cbv
  have hfair : Request.AreFair (Sight.ofGiven given) session requests := by
    refine ⟨List.nil_subset _, List.nil_subset _, ?_, trivial⟩
    -- the literal came to light first when the text was read
    have hmade : (Request.sights (.run { limit := 9 } none "s = t = \"a\"") session).head? =
        some (.made ⟨"a", 9⟩) := by cbv
    rintro _ (_ | ⟨_, ⟨⟩⟩)
    refine List.mem_filterMap.2 ⟨.made ⟨"a", 9⟩, ?_, rfl⟩
    exact List.mem_append_left _ (List.mem_append_right _ (List.mem_of_head? hmade))
  obtain ⟨hidentify, hbindings, -⟩ := handles_identify_strings given session requests hstart hfair
  exact ⟨by cbv, hidentify, hbindings, by cbv⟩

end Scriptlet
