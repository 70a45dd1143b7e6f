import Scriptlet.Proofs.Tracing

/-! # How much is traced

The same program is run with two verbosities. As long as neither is beyond two, the entries of the
lesser one are found among those of the greater one, in their order: the runs are followed side by
side, and where only one of them writes an entry it is the one with the greater verbosity. Beyond
two nothing is traced at all.

* `traceEntries`: the entries that stand in a journal.
* `Run.closedRun_keepsUntraced`: a run that traces no statement writes no entry.
* `Stmt.keepsFuller_program`: two runs side by side, of which the second one traces inner statements
  as well.
* `more_verbosity_shows_more_iff`: when the greater verbosity shows all that the lesser one does. -/

namespace Scriptlet

/-! ## Entries -/

/-- An entry of the trace. -/
structure TraceEntry where
  /-- How many statements were started before. -/
  number : Nat
  /-- The line about the statement, unless its text could not be made. -/
  line : Option String
  deriving DecidableEq, Repr

/-- The entries that stand in a journal. -/
def traceEntries : List Event → List TraceEntry
  | [] => []
  | .numbered number :: .traced line :: rest => ⟨number, some line⟩ :: traceEntries rest
  | .numbered number :: rest => ⟨number, none⟩ :: traceEntries rest
  | _ :: rest => traceEntries rest

/-- What is written behind a journal adds its own entries, unless it completes one. -/
theorem traceEntries_append (events : List Event) {others : List Event}
    (h : ∀ line, others.head? ≠ some (.traced line)) :
    traceEntries (events ++ others) = traceEntries events ++ traceEntries others := by
  fun_induction traceEntries events with
  | case1 => rfl
  | case2 number line rest ih =>
    rw [List.cons_append, List.cons_append, traceEntries, ih, List.cons_append]
  | case3 number rest hrest ih =>
    -- the next event completes the entry neither in front of the seam nor behind it
    have hnext : ∀ line behind, rest ++ others = .traced line :: behind → False := by
      intro line behind hbehind
      cases rest with
      | nil =>
        rw [List.nil_append] at hbehind
        exact h line (by rw [hbehind, List.head?_cons])
      | cons event rest => exact hrest line rest (congrArg (· :: rest) (List.cons.inj hbehind).1)
    rw [List.cons_append, traceEntries.eq_3 _ _ hnext, ih, List.cons_append]
  | case4 event rest hentry hnumber ih =>
    cases event with
    | numbered number => exact (hnumber number rfl).elim
    | _ => exact ih

/-- An event outside of the trace adds no entry. -/
theorem traceEntries_concat (events : List Event) {event : Event} (h : event.isTrace = false) :
    traceEntries (events ++ [event]) = traceEntries events := by
  rw [traceEntries_append]
  · cases event with
    | printed text => exact List.append_nil _
    | stored name => exact List.append_nil _
    | numbered => cases h
    | traced => cases h
  · intro line hline
    cases hline
    cases h

/-- No entry begins with a line: its number comes first. -/
theorem Start.head?_entry (start : Start) (number : Nat) (line : String) :
    (start.entry number).head? ≠ some (.traced line) :=
  fun hline => by cases hline

namespace Run

variable {α β : Type}

/-- What a computation writes into the journal. -/
def written (run : Run α) (machine : Machine) : List Event :=
  (run.final machine).journal.drop machine.journal.length

/-- What a computation writes is what the journal has in addition. -/
theorem written_eq {run : Run α} {machine : Machine} {events : List Event}
    (h : (run.final machine).journal = machine.journal ++ events) :
    run.written machine = events := by
  rw [written, h, List.drop_left]

/-! ## Runs that trace nothing -/

/-- A machine inside some number of blocks, on which no entry was written. -/
def Untraced (past : List Event) (level : Nat) (machine : Machine) : Prop :=
  machine.depth = level ∧ ∃ written, machine.journal = past ++ written ∧ traceEntries written = []

/-- A computation inside at least some number of blocks writes no entry. -/
def KeepsUntraced (past : List Event) (floor : Nat) (run : Run α) : Prop :=
  ∀ level, floor ≤ level →
    Triple (Untraced past level) run (fun _ => Untraced past level) fun _ => Untraced past level

variable {past : List Event} {floor : Nat}

/-- To note an event outside of the trace writes no entry. -/
theorem keepsUntraced_record {event : Event} (h : event.isTrace = false) :
    KeepsUntraced past floor (record event) := by
  refine fun level _ => triple_modify ?_
  rintro machine ⟨hlevel, written, hjournal, hentries⟩
  refine ⟨hlevel, written ++ [event], ?_, ?_⟩
  · rw [hjournal, List.append_assoc]
  · rw [traceEntries_concat _ h, hentries]

/-- **Where no statement is traced, no entry is written.** -/
theorem closedRun_keepsUntraced (past : List Event) {settings : Settings}
    (h : ∀ depth, floor ≤ depth → Stmt.isTraced settings.verbosity depth = false) :
    ClosedRun settings (fun _ => True) (KeepsUntraced past floor) where
  pure _ _ _ := triple_pure fun _ => id
  throw _ _ _ := triple_throw fun _ => id
  bind hrun hnext level hlevel :=
    Triple.bind (hrun level hlevel) fun result => hnext result level hlevel
  adaptExcept _ hrun level hlevel := Triple.adaptExcept (hrun level hlevel)
  load _ _ _ _ := id
  settle _ _ _ _ := id
  store name value _ level hlevel :=
    Triple.bind (triple_modify fun _ huntraced => huntraced) fun _ =>
      keepsUntraced_record rfl level hlevel
  nested {_ run} hrun level hlevel := by
    rintro machine ⟨hdepth, hjournal⟩
    -- inside the block the level is one higher, and nothing is traced there either
    have hinside := hrun (level + 1) (Nat.le_succ_of_le hlevel)
      { machine with depth := machine.depth + 1 } ⟨congrArg (· + 1) hdepth, hjournal⟩
    unfold Run.nested
    cases hfound : run { machine with depth := machine.depth + 1 } with
    | ok result machine' =>
      rw [hfound] at hinside
      exact ⟨congrArg (· - 1) hinside.1, hinside.2⟩
    | error halt machine' =>
      rw [hfound] at hinside
      exact ⟨congrArg (· - 1) hinside.1, hinside.2⟩
  print _ := keepsUntraced_record rfl
  trace stmt level hlevel := by
    rintro machine ⟨rfl, hjournal⟩
    rw [trace_of_not_isTraced stmt (h machine.depth hlevel)]
    exact ⟨rfl, hjournal⟩
  count _ _ _ := id

end Run

/-- The entries that a run of a program writes to the trace. -/
def Stmt.shownEntries (settings : Settings) (program : List Stmt) (machine : Machine) :
    List TraceEntry :=
  traceEntries ((executeAll settings program).written machine)

/-- A verbosity that traces at no depth shows nothing. -/
theorem Stmt.shownEntries_eq_nil {settings : Settings} {machine : Machine}
    (h : ∀ depth, machine.depth ≤ depth → isTraced settings.verbosity depth = false)
    (program : List Stmt) : shownEntries settings program machine = [] := by
  have hclosed := Run.closedRun_keepsUntraced machine.journal h
  have huntraced := (hclosed.executeAll program (fun _ _ => trivial) _ (Nat.le_refl _)).final
    ⟨rfl, [], (List.append_nil _).symm, rfl⟩
  obtain ⟨-, events, hjournal, hentries⟩ := huntraced
  rw [shownEntries, Run.written_eq hjournal, hentries]

/-! ## Runs side by side -/

/-- Two machines that differ in their journals only, since the second one has written all entries
that the first one has, and perhaps others in between. -/
structure Fuller (past : List Event) (level : Nat) (machine machine' : Machine) : Prop where
  bindings : machine'.bindings = machine.bindings
  nextHandle : machine'.nextHandle = machine.nextHandle
  steps : machine'.steps = machine.steps
  counted : machine'.counted = machine.counted
  depth : machine.depth = level
  depth' : machine'.depth = level
  journal : ∃ written written', machine.journal = past ++ written ∧
    machine'.journal = past ++ written' ∧ (traceEntries written).Sublist (traceEntries written')

/-- Writing to both journals, if the second one gets all entries that the first one gets. -/
theorem Fuller.append {past : List Event} {level : Nat} {machine machine' : Machine}
    (h : Fuller past level machine machine') {events events' : List Event}
    (hhead : ∀ line, events.head? ≠ some (.traced line))
    (hhead' : ∀ line, events'.head? ≠ some (.traced line))
    (hentries : (traceEntries events).Sublist (traceEntries events')) :
    ∃ written written', machine.journal ++ events = past ++ written ∧
      machine'.journal ++ events' = past ++ written' ∧
      (traceEntries written).Sublist (traceEntries written') := by
  obtain ⟨written, written', hjournal, hjournal', hsublist⟩ := h.journal
  refine ⟨written ++ events, written' ++ events', ?_, ?_, ?_⟩
  · rw [hjournal, List.append_assoc]
  · rw [hjournal', List.append_assoc]
  -- what is appended does not go on with an entry that is cut in two
  · rw [traceEntries_append _ hhead, traceEntries_append _ hhead']
    exact hsublist.append hentries

namespace Run

variable {α β : Type} {past : List Event} {level : Nat}

/-- Two computations that start on such machines both return, with the same result, or both stop,
and leave such machines behind. -/
def KeepsFuller (past : List Event) (level : Nat) (run run' : Run α) : Prop :=
  Couple (Fuller past level) run run'
    (fun result result' machine machine' => result' = result ∧ Fuller past level machine machine')
    fun _ _ => Fuller past level

section KeepsFuller

variable {run run' : Run α} {next next' : α → Run β}

/-- Equal answers keep the second journal fuller. -/
theorem keepsFuller_pure (result : α) : KeepsFuller past level (pure result) (pure result) :=
  couple_pure fun _ _ hfuller => ⟨rfl, hfuller⟩

/-- Equal stops keep the second journal fuller. -/
theorem keepsFuller_throw (halt : Halt) :
    KeepsFuller past level (throw halt : Run α) (throw halt) :=
  couple_throw fun _ _ => id

/-- Computations that keep the second journal fuller do so in turn. -/
theorem KeepsFuller.bind (hrun : KeepsFuller past level run run')
    (hnext : ∀ result, KeepsFuller past level (next result) (next' result)) :
    KeepsFuller past level (run >>= next) (run' >>= next') := by
  refine Couple.bind hrun ?_
  rintro result _ machine machine' ⟨rfl, hfuller⟩
  exact hnext _ machine machine' hfuller

/-- How stops are reported does not matter, if both are reported alike. -/
theorem KeepsFuller.adaptExcept (h : KeepsFuller past level run run') (report : Halt → Halt) :
    KeepsFuller past level (EStateM.adaptExcept report run) (EStateM.adaptExcept report run') :=
  Couple.adaptExcept h fun _ _ _ _ => id

/-- One level deeper the second journal is kept fuller as well. -/
theorem KeepsFuller.nested (h : KeepsFuller past (level + 1) run run') :
    KeepsFuller past level (Run.nested run) (Run.nested run') := by
  intro machine machine' hfuller
  -- inside the block both machines are one level deeper
  have hopen : Fuller past (level + 1) { machine with depth := machine.depth + 1 }
      { machine' with depth := machine'.depth + 1 } :=
    { hfuller with
      depth := congrArg (· + 1) hfuller.depth, depth' := congrArg (· + 1) hfuller.depth' }
  rcases h.cases hopen with ⟨result, result', left, right, hrun, hrun', hresult, hinside⟩ |
    ⟨halt, halt', left, right, hrun, hrun', hinside⟩
  · rw [Run.nested, Run.nested, hrun, hrun']
    exact ⟨hresult, { hinside with
      depth := congrArg (· - 1) hinside.depth, depth' := congrArg (· - 1) hinside.depth' }⟩
  · rw [Run.nested, Run.nested, hrun, hrun']
    exact { hinside with
      depth := congrArg (· - 1) hinside.depth, depth' := congrArg (· - 1) hinside.depth' }

/-- What is left behind, however the computations end. -/
theorem KeepsFuller.final (h : KeepsFuller past level run run') {machine machine' : Machine}
    (hfuller : Fuller past level machine machine') :
    Fuller past level (run.final machine) (run'.final machine') := by
  unfold Run.final
  rcases h.cases hfuller with ⟨result, result', left, right, hrun, hrun', -, hafter⟩ |
    ⟨halt, halt', left, right, hrun, hrun', hafter⟩
  · rw [hrun, hrun']
    exact hafter
  · rw [hrun, hrun']
    exact hafter

end KeepsFuller

/-- An event outside of the trace is noted in both journals. -/
theorem keepsFuller_record {event : Event} (h : event.isTrace = false) :
    KeepsFuller past level (record event) (record event) := by
  intro machine machine' hfuller
  have hhead (line : String) : [event].head? ≠ some (.traced line) := by
    rintro ⟨⟩
    cases h
  exact ⟨rfl, { hfuller with journal := hfuller.append hhead hhead (List.Sublist.refl _) }⟩

/-- Expressions are evaluated in the same way on both machines. -/
theorem closedEval_keepsFuller :
    ClosedEval (fun _ => True) fun run => KeepsFuller past level run run where
  pure := keepsFuller_pure
  throw := keepsFuller_throw
  bind hrun hnext := hrun.bind hnext
  adaptExcept report h := h.adaptExcept report
  load name machine machine' hfuller := by
    refine ⟨?_, hfuller⟩
    rw [hfuller.bindings]
  -- both machines give out the same handle
  settle yield machine machine' hfuller := by
    refine ⟨?_, { hfuller with nextHandle := congrArg (· + 1) hfuller.nextHandle }⟩
    rw [hfuller.nextHandle]
  store name value _ := by
    refine KeepsFuller.bind ?_ fun _ => keepsFuller_record rfl
    intro machine machine' hfuller
    exact ⟨rfl, { hfuller with bindings := congrArg (·.insert name value) hfuller.bindings }⟩

end Run

/-! ## Statements that can be traced -/

namespace Stmt

/-- The entry for a statement can be completed: it is not nested too deeply and has a text. -/
def Fits (limit : Nat) (stmt : Stmt) : Prop :=
  stmt.depth ≤ limit ∧ stmt.isComplete = true

/-- The same for statements in a row. -/
def FitAll (limit : Nat) (row : List Stmt) : Prop :=
  depthAll row ≤ limit ∧ areComplete row = true

variable {limit : Nat}

/-- A statement that fits has a text. -/
theorem Fits.render? {stmt : Stmt} (h : stmt.Fits limit) : stmt.render? = some stmt.render :=
  if_pos h.2

/-- A row fits if its first statement and the others do. -/
theorem fitAll_cons {first : Stmt} {rest : List Stmt} :
    FitAll limit (first :: rest) ↔ first.Fits limit ∧ FitAll limit rest := by
  rw [FitAll, FitAll, Fits, depthAll, areComplete, Nat.max_le, Bool.and_eq_true]
  exact and_and_and_comm

/-- The statements of a block that fits do so. -/
theorem Fits.block {body : List Stmt} {place : Option Position}
    (h : (Stmt.block body place).Fits limit) : FitAll limit body := by
  obtain ⟨hdepth, hcomplete⟩ := h
  rw [depth] at hdepth
  exact ⟨Nat.le_of_succ_le hdepth, hcomplete⟩

/-- The body of a conditional statement that fits does so. -/
theorem Fits.cond {condition : Expr} {body : Stmt} {place : Option Position}
    (h : (Stmt.cond condition body place).Fits limit) : body.Fits limit := by
  obtain ⟨hdepth, hcomplete⟩ := h
  rw [depth] at hdepth
  rw [isComplete, Bool.and_eq_true] at hcomplete
  exact ⟨by omega, hcomplete.2⟩

/-- Both bodies of a conditional statement that fits do so. -/
theorem Fits.condElse {condition : Expr} {body other : Stmt} {place : Option Position}
    (h : (Stmt.condElse condition body other place).Fits limit) :
    body.Fits limit ∧ other.Fits limit := by
  obtain ⟨hdepth, hcomplete⟩ := h
  rw [depth] at hdepth
  rw [isComplete, Bool.and_eq_true, Bool.and_eq_true] at hcomplete
  exact ⟨⟨by omega, hcomplete.1.2⟩, ⟨by omega, hcomplete.2⟩⟩

open Run

/-- If the entry for a statement cannot be completed, the run stops behind its number. -/
theorem enter_of_not_fits {stmt : Stmt} (h : ¬ stmt.Fits limit) {verbosity : Nat}
    {machine : Machine} (htraced : isTraced verbosity machine.depth = true) :
    ∃ halt, stmt.enter { verbosity, limit } machine =
      .error halt { machine with journal := machine.journal ++ [.numbered machine.steps] } := by
  have hget : (get : Run Machine) machine = .ok machine machine := rfl
  have hrecord : Run.record (.numbered machine.steps) machine =
      .ok () { machine with journal := machine.journal ++ [.numbered machine.steps] } := rfl
  -- the number is written in either case, before the line is attempted
  by_cases hdepth : limit < stmt.depth
  · refine ⟨.tooDeep, ?_⟩
    rw [enter, trace, bind_of_error]
    rw [bind_of_ok hget, if_pos htraced, bind_of_ok hrecord, if_pos hdepth]
    rfl
  · have hrender : stmt.render? = none := by
      rw [Stmt.render?, if_neg]
      exact fun hcomplete => h ⟨Nat.le_of_not_lt hdepth, hcomplete⟩
    refine ⟨.gap, ?_⟩
    rw [enter, trace, bind_of_error]
    rw [bind_of_ok hget, if_pos htraced, bind_of_ok hrecord, if_neg hdepth, hrender]
    rfl

variable {past : List Event}

/-- The entry for a statement is written on both machines, or on the second one only. -/
theorem keepsFuller_enter {level : Nat} {stmt : Stmt} (h : stmt.Fits limit) :
    KeepsFuller past level (stmt.enter { verbosity := 1, limit })
      (stmt.enter { verbosity := 2, limit }) := by
  intro machine machine' hfuller
  rw [enter_eq h.render? h.1, enter_eq h.render? h.1, hfuller.bindings, hfuller.steps,
    hfuller.counted, hfuller.depth, hfuller.depth']
  refine ⟨rfl, { hfuller with
    bindings := rfl, steps := rfl, counted := rfl, depth := rfl, depth' := rfl,
    journal := hfuller.append ?_ ?_ ?_ }⟩
  -- a lesser verbosity traces outside of blocks only, a greater one everywhere
  · split
    · exact Start.head?_entry _ _
    · nofun
  · exact Start.head?_entry _ _
  · split
    · exact List.Sublist.refl _
    · exact List.nil_sublist _

/-- If the entry for an outer statement cannot be completed, both runs stop behind its number. -/
theorem keepsFuller_of_not_fits {first : Stmt} (h : ¬ first.Fits limit) (rest : List Stmt) :
    KeepsFuller past 0 (executeAll { verbosity := 1, limit } (first :: rest))
      (executeAll { verbosity := 2, limit } (first :: rest)) := by
  intro machine machine' hfuller
  have htraced : isTraced 1 machine.depth = true := by
    rw [hfuller.depth]
    rfl
  have htraced' : isTraced 2 machine'.depth = true := rfl
  obtain ⟨halt, hrun⟩ := enter_of_not_fits h htraced
  obtain ⟨halt', hrun'⟩ := enter_of_not_fits h htraced'
  rw [executeAll_cons, executeAll_cons, bind_of_error hrun, bind_of_error hrun', hfuller.steps]
  have hhead (line : String) : [Event.numbered machine.steps].head? ≠ some (.traced line) := nofun
  exact { hfuller with steps := rfl, journal := hfuller.append hhead hhead (List.Sublist.refl _) }

/-- A row keeps the second journal fuller if its first statement and the others do. -/
theorem keepsFuller_cons {level : Nat} {first : Stmt} {rest : List Stmt} (hfits : first.Fits limit)
    (hfirst : KeepsFuller past level (first.execute { verbosity := 1, limit })
      (first.execute { verbosity := 2, limit }))
    (hrest : KeepsFuller past level (executeAll { verbosity := 1, limit } rest)
      (executeAll { verbosity := 2, limit } rest)) :
    KeepsFuller past level (executeAll { verbosity := 1, limit } (first :: rest))
      (executeAll { verbosity := 2, limit } (first :: rest)) := by
  rw [executeAll_cons, executeAll_cons]
  refine (keepsFuller_enter hfits).bind fun _ => ?_
  refine (hfirst.adaptExcept _).bind fun result => ?_
  exact hrest.bind fun last => keepsFuller_pure _

mutual

/-- Executing a statement with both verbosities. -/
theorem keepsFuller_execute : ∀ {level : Nat} (stmt : Stmt), stmt.Fits limit →
    KeepsFuller past level (stmt.execute { verbosity := 1, limit })
      (stmt.execute { verbosity := 2, limit })
  | _, .expression expr _, _ => by
    rw [execute, execute]
    refine (closedEval_keepsFuller.evalWithin limit fun _ _ => trivial).bind fun value => ?_
    exact keepsFuller_pure _
  | _, .print expr _, _ => by
    rw [execute, execute]
    refine (closedEval_keepsFuller.evalWithin limit fun _ _ => trivial).bind fun value => ?_
    exact (keepsFuller_record rfl).bind fun _ => keepsFuller_pure _
  | _, .ret expr _, _ => by
    rw [execute_ret, execute_ret]
    refine (closedEval_keepsFuller.evalWithin limit fun _ _ => trivial).bind fun value => ?_
    exact (closedEval_keepsFuller.ofExcept _).bind fun _ => keepsFuller_throw _
  -- inside, the lesser verbosity shows nothing, so its journal stays within the other
  | _, .block body _, h => by
    rw [execute, execute]
    exact (keepsFuller_executeAll body h.block).nested.bind fun _ => keepsFuller_pure _
  | _, .cond condition body _, h => by
    rw [execute, execute]
    refine (closedEval_keepsFuller.holds _ fun _ _ => trivial).bind fun truth => ?_
    cases truth with
    | true => exact (keepsFuller_execute body h.cond).bind fun _ => keepsFuller_pure _
    | false => exact keepsFuller_pure _
  | _, .condElse condition body other _, h => by
    rw [execute, execute]
    refine (closedEval_keepsFuller.holds _ fun _ _ => trivial).bind fun truth => ?_
    cases truth with
    | true => exact (keepsFuller_execute body h.condElse.1).bind fun _ => keepsFuller_pure _
    | false => exact (keepsFuller_execute other h.condElse.2).bind fun _ => keepsFuller_pure _
  | _, .misplaced expr, _ => by
    rw [execute, execute]
    split
    · exact keepsFuller_throw _
    · exact keepsFuller_throw _

/-- Executing statements in a row with both verbosities, at any level. -/
theorem keepsFuller_executeAll : ∀ {level : Nat} (row : List Stmt), FitAll limit row →
    KeepsFuller past level (executeAll { verbosity := 1, limit } row)
      (executeAll { verbosity := 2, limit } row)
  | _, [], _ => by
    rw [executeAll, executeAll]
    exact keepsFuller_pure _
  | _, first :: rest, h => by
    obtain ⟨hfirst, hrest⟩ := fitAll_cons.1 h
    exact keepsFuller_cons hfirst (keepsFuller_execute first hfirst)
      (keepsFuller_executeAll rest hrest)

end

/-- **A program that is run with both verbosities**: the greater one shows all that the lesser one
does. -/
theorem keepsFuller_program (program : List Stmt) :
    KeepsFuller past 0 (executeAll { verbosity := 1, limit } program)
      (executeAll { verbosity := 2, limit } program) := by
  induction program with
  | nil =>
    rw [executeAll, executeAll]
    exact keepsFuller_pure _
  | cons first rest ih =>
    by_cases hfits : first.Fits limit
    · exact keepsFuller_cons hfits (keepsFuller_execute first hfits) ih
    · exact keepsFuller_of_not_fits hfits rest

end Stmt

/-! ## Lesser and greater verbosity -/

/-- Above a verbosity of two nothing is traced. -/
theorem Stmt.isTraced_of_two_lt {verbosity : Nat} (h : 2 < verbosity) (depth : Nat) :
    Stmt.isTraced verbosity depth = false := by
  rw [Stmt.isTraced, beq_eq_false_iff_ne.2 (by omega), beq_eq_false_iff_ne.2 (by omega)]
  rfl

/-- With a verbosity of one, the entries are among those with a verbosity of two: inside a block
there are none, and outside all blocks both runs can be followed. -/
theorem Stmt.shownEntries_one_sublist (limit : Nat) (program : List Stmt) (machine : Machine) :
    (shownEntries { verbosity := 1, limit } program machine).Sublist
      (shownEntries { verbosity := 2, limit } program machine) := by
  -- inside a block the lesser verbosity shows nothing at all
  cases hdepth : machine.depth with
  | succ depth =>
    have hnone : shownEntries { verbosity := 1, limit } program machine = [] := by
      refine shownEntries_eq_nil (fun inside hinside => ?_) program
      obtain ⟨outer, rfl⟩ := Nat.exists_eq_succ_of_ne_zero (show inside ≠ 0 by omega)
      rfl
    rw [hnone]
    exact List.nil_sublist _
  | zero =>
    have hstart : Fuller machine.journal 0 machine machine :=
      ⟨rfl, rfl, rfl, rfl, hdepth, hdepth, [], [], by simp, by simp, List.Sublist.refl _⟩
    obtain ⟨written, written', hjournal, hjournal', hsublist⟩ :=
      ((keepsFuller_program program).final hstart).journal
    rw [shownEntries, shownEntries, Run.written_eq hjournal, Run.written_eq hjournal']
    exact hsublist

/-- **When more verbosity shows more.** A program is run with a lesser and with a greater verbosity,
on any machine. The entries that the lesser one writes to the trace are among those of the greater
one, in their order, if and only if the greater one is at most two or there are no such entries:
with a verbosity beyond two nothing is traced. -/
theorem more_verbosity_shows_more_iff (limit : Nat) (program : List Stmt) (machine : Machine)
    {lesser greater : Nat} (h : lesser ≤ greater) :
    let shown (verbosity : Nat) := Stmt.shownEntries { verbosity, limit } program machine
    ((shown lesser).Sublist (shown greater) ↔ greater ≤ 2 ∨ shown lesser = []) ∧
      (2 < greater → shown greater = []) := by
  intro shown
  have hnone (hgreater : 2 < greater) : shown greater = [] :=
    Stmt.shownEntries_eq_nil (fun depth _ => Stmt.isTraced_of_two_lt hgreater depth) program
  refine ⟨⟨fun hsublist => ?_, ?_⟩, hnone⟩
  · by_cases hgreater : greater ≤ 2
    · exact .inl hgreater
    · rw [hnone (Nat.lt_of_not_le hgreater)] at hsublist
      exact .inr (List.sublist_nil.1 hsublist)
  · rintro (hgreater | hempty)
    · rcases Nat.eq_or_lt_of_le h with rfl | hlt
      · exact List.Sublist.refl _
      · -- one of two different verbosities up to two is none, or they are one and two
        obtain rfl | ⟨rfl, rfl⟩ : lesser = 0 ∨ lesser = 1 ∧ greater = 2 := by omega
        · have hquiet : shown 0 = [] := Stmt.shownEntries_eq_nil (fun _ _ => rfl) program
          rw [hquiet]
          exact List.nil_sublist _
        · exact Stmt.shownEntries_one_sublist limit program machine
    · rw [hempty]
      exact List.nil_sublist _

/-- Of a statement that is chosen by a condition, the lesser verbosity shows only what is around
it. -/
theorem more_verbosity_shows_chosen_statement :
    let source := "if s == s \x7b print s \x7d"
    let machine : Machine := { bindings := .ofList [("s", .string ⟨"a", 0⟩)], nextHandle := 1 }
    ∃ program, Program.ofSource 9 none 1 source = .ok program ∧
      let shown (verbosity : Nat) := Stmt.shownEntries { verbosity, limit := 9 } program machine
      1 ≤ 2 ∧ (shown 1).Sublist (shown 2) ∧ (shown 1).map TraceEntry.number = [0] ∧
        (shown 2).map TraceEntry.number = [0, 1] := by
  intro source machine
  let place (column : Nat) : Option Position := some ⟨none, 1, column⟩
  let program : List Stmt :=
    [.cond (.binary (.name "s" (place 4)) .equal (.name "s" (place 9)) (place 6))
      (.block [.print (.name "s" (place 19)) (place 13)] (place 11)) (place 1)]
  have hread : Program.ofSource 9 none 1 source = .ok program := by cbv
  have hle : 1 ≤ 2 := by decide
  have hshown := (more_verbosity_shows_more_iff 9 program machine hle).1
  refine ⟨program, hread, hle, hshown.2 (.inl (Nat.le_refl 2)), ?_, ?_⟩
  · cbv
  · cbv

/-- With a verbosity of two an assignment is traced, and with three it is not. -/
theorem more_verbosity_shows_nothing :
    let machine : Machine := {}
    (∃ program, Program.ofSource 9 none 0 "x = \"a\"" = .ok program ∧
      (Stmt.shownEntries { verbosity := 2, limit := 9 } program machine).map TraceEntry.number =
        [0] ∧
      Stmt.shownEntries { verbosity := 3, limit := 9 } program machine = []) ∧
    ¬ ∀ (limit : Nat) (source : String) (program : List Stmt) (machine : Machine)
        (lesser greater : Nat), Program.ofSource limit none 0 source = .ok program →
      lesser ≤ greater →
        (Stmt.shownEntries { verbosity := lesser, limit } program machine).Sublist
          (Stmt.shownEntries { verbosity := greater, limit } program machine) := by
  intro machine
  let program : List Stmt :=
    [.expression (.binary (.name "x" (some ⟨none, 1, 1⟩)) .assign
      (.string ⟨"a", 4⟩ (some ⟨none, 1, 5⟩)) (some ⟨none, 1, 3⟩)) (some ⟨none, 1, 1⟩)]
  have hread : Program.ofSource 9 none 0 "x = \"a\"" = .ok program := by cbv
  have htwo : (Stmt.shownEntries { verbosity := 2, limit := 9 } program machine).map
      TraceEntry.number = [0] := by cbv
  have hthree : Stmt.shownEntries { verbosity := 3, limit := 9 } program machine = [] := by cbv
  refine ⟨⟨program, hread, htwo, hthree⟩, fun h => ?_⟩
  have hsublist := h 9 "x = \"a\"" program machine 2 3 hread (by decide)
  -- if more were shown with three, nothing would be shown with two
  rw [hthree, List.sublist_nil] at hsublist
  rw [hsublist] at htwo
  cases htwo

end Scriptlet
