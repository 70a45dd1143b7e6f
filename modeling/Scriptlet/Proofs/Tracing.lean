import Mathlib
import Scriptlet.Proofs.Handles

/-! # What tracing shows

A run that is traced and one that is not are followed side by side. They do the same, step by step,
and what is traced can be read off the statements that are started: an entry for each of them, or for
the outer ones, numbered by the statements that were started before.

* `Stmt.startsAll`: the statements that a run starts, each with its level and the bindings it finds.
* `Start.entries`: the trace of statements that were started one after the other.
* `Run.Follows`: two computations that differ in their traces only.
* `tracing_only_observes`: a traced run does the same as one that is not traced. -/

namespace Scriptlet

/-! ## Statements that are started -/

/-- A statement that a run has started. -/
structure Start where
  /-- The statement. -/
  stmt : Stmt
  /-- How many blocks of the program there are around it. -/
  level : Nat
  /-- The bindings that it finds. -/
  bindings : Bindings Value

namespace Stmt

mutual

/-- The statements that are started inside a statement at some level. -/
def starts (settings : Settings) (level : Nat) : Stmt → Machine → List Start
  | .block body _, machine =>
    startsAll settings (level + 1) body { machine with depth := machine.depth + 1 }
  | .cond condition body _, machine =>
    (holds settings condition).behind
      (fun truth => if truth then body.starts settings level else fun _ => []) machine
  | .condElse condition body other _, machine =>
    (holds settings condition).behind
      (fun truth => if truth then body.starts settings level else other.starts settings level)
      machine
  | .expression .., _ | .print .., _ | .ret .., _ | .misplaced _, _ => []

/-- The statements that are started when statements at some level are executed in order: the first
one, those inside it, and unless it stops the others. -/
def startsAll (settings : Settings) (level : Nat) : List Stmt → Machine → List Start
  | [], _ => []
  | first :: rest, machine =>
    ⟨first, level, machine.bindings⟩ ::
      (first.enter settings).behind
        (fun _ machine' => first.starts settings level machine' ++
          (first.execute settings).behind (fun _ => startsAll settings level rest) machine')
        machine

end

variable {settings : Settings}

mutual

/-- What is started inside a statement has more blocks around it. -/
theorem level_of_mem_starts {level : Nat} {start : Start} : ∀ {stmt : Stmt} {machine : Machine},
    start ∈ stmt.starts settings level machine → level < start.level
  | .block body _, machine, h => by
    rw [starts] at h
    exact level_of_mem_startsAll h
  -- a condition adds no level; only the block that is its body does
  | .cond condition body _, machine, h => by
    rw [starts] at h
    obtain ⟨truth, machine', -, hstart⟩ := Run.mem_behind h
    cases truth with
    | true => exact level_of_mem_starts hstart
    | false => cases hstart
  | .condElse condition body other _, machine, h => by
    rw [starts] at h
    obtain ⟨truth, machine', -, hstart⟩ := Run.mem_behind h
    cases truth with
    | true => exact level_of_mem_starts hstart
    | false => exact level_of_mem_starts hstart
  | .expression .., machine, h | .print .., machine, h | .ret .., machine, h
  | .misplaced _, machine, h => by
    rw [starts] at h
    cases h

/-- What is started inside a row stands at its level or deeper. -/
theorem level_of_mem_startsAll {level : Nat} {start : Start} : ∀ {row : List Stmt}
    {machine : Machine}, start ∈ startsAll settings level row machine → level ≤ start.level
  | [], machine, h => by
    rw [startsAll] at h
    cases h
  | first :: rest, machine, h => by
    rw [startsAll] at h
    rcases List.mem_cons.1 h with rfl | hstart
    · exact Nat.le_refl _
    · obtain ⟨-, machine', -, hstart⟩ := Run.mem_behind hstart
      -- inside the first statement the level is higher, behind it is the same
      rcases List.mem_append.1 hstart with hstart | hstart
      · exact Nat.le_of_lt (level_of_mem_starts hstart)
      · obtain ⟨-, machine'', -, hstart⟩ := Run.mem_behind hstart
        exact level_of_mem_startsAll hstart

end

end Stmt

/-! ## Traces -/

/-- Whether an event belongs to the trace. -/
def Event.isTrace : Event → Bool
  | .numbered _ | .traced _ => true
  | .printed _ | .stored _ => false

namespace Start

/-- The entry of a statement in the trace, under a number. -/
def entry (start : Start) (number : Nat) : List Event :=
  [.numbered number, .traced (Trace.line Trace.fieldWidth
    (start.bindings.entries.map fun entry => (entry.1, some entry.2)) start.stmt.render)]

/-- The trace of statements that are started one after the other. All of them are numbered, also
those that are not traced. -/
def entries (verbosity : Nat) : Nat → List Start → List Event
  | _, [] => []
  | number, start :: rest =>
    (if Stmt.isTraced verbosity start.level then start.entry number else []) ++
      entries verbosity (number + 1) rest

variable {verbosity : Nat}

/-- An entry belongs to the trace as a whole. -/
theorem filter_entry (start : Start) (number : Nat) :
    (start.entry number).filter Event.isTrace = start.entry number ∧
      (start.entry number).filter (!·.isTrace) = [] :=
  ⟨rfl, rfl⟩

/-- The entries of two rows of statements are numbered on. -/
theorem entries_append (number : Nat) (starts others : List Start) :
    entries verbosity number (starts ++ others) =
      entries verbosity number starts ++ entries verbosity (number + starts.length) others := by
  induction starts generalizing number with
  | nil => rfl
  | cons start rest ih =>
    rw [List.cons_append, entries, entries, ih, List.append_assoc, List.length_cons,
      Nat.add_assoc number, Nat.add_comm 1]

/-- How many of the statements that are started have an entry in the trace: none, the outer ones, or
all. -/
def shown : Nat → List Start → Nat
  | 0, _ => 0
  | 1, starts => starts.countP (·.level == 0)
  | _, starts => starts.length

end Start

/-- A traced machine and one that is not traced, after some statements were started: they differ in
the trace only, and that is the trace of these statements. Before them, `begun` statements were
counted and `past` was written. -/
structure Watched (verbosity begun : Nat) (past : List Event) (level : Nat) (seen : List Start)
    (machine machine' : Machine) : Prop where
  bindings : machine'.bindings = machine.bindings
  nextHandle : machine'.nextHandle = machine.nextHandle
  steps : machine.steps = begun + seen.length
  steps' : machine'.steps = begun + seen.length
  depth : machine.depth = level
  depth' : machine'.depth = level
  journal : ∃ written, machine.journal = past ++ written ∧
    machine'.journal = past ++ written.filter (!·.isTrace) ∧
    written.filter Event.isTrace = Start.entries verbosity begun seen

/-- The trace is not part of what is printed. -/
theorem Event.join_outputText (events : List Event) :
    String.join ((events.filter (!·.isTrace)).map Event.outputText) =
      String.join (events.map Event.outputText) := by
  induction events with
  | nil => rfl
  | cons event rest ih =>
    rw [List.map_cons, String.join_cons, ← ih, List.filter_cons]
    cases event with
    | printed text => exact String.join_cons
    | stored name => exact String.join_cons
    | numbered steps => exact String.empty_append.symm
    | traced line => exact String.empty_append.symm

namespace Watched

variable {verbosity begun : Nat} {past : List Event} {level : Nat} {seen : List Start}
  {machine machine' : Machine}

/-- A trace prints nothing. -/
theorem printed (h : Watched verbosity begun past level seen machine machine') :
    machine'.printed = machine.printed := by
  obtain ⟨written, hjournal, hjournal', -⟩ := h.journal
  unfold Machine.printed
  rw [hjournal, hjournal', List.map_append, List.map_append, String.join_append,
    String.join_append, Event.join_outputText]

/-- Before anything is started, a machine is watched by itself. -/
theorem start (verbosity : Nat) (machine : Machine) :
    Watched verbosity machine.steps machine.journal machine.depth [] machine machine where
  bindings := rfl
  nextHandle := rfl
  steps := rfl
  steps' := rfl
  depth := rfl
  depth' := rfl
  journal := ⟨[], (List.append_nil _).symm, (List.append_nil _).symm, rfl⟩

end Watched

namespace Run

variable {verbosity begun : Nat} {past : List Event} {level : Nat} {α β : Type}

/-- Two computations that start on such machines both return, with the same result, or both stop, for
the same reason, and leave such machines behind. -/
def Follows (verbosity begun : Nat) (past : List Event) (level : Nat) (run run' : Run α)
    (starts : Machine → List Start) : Prop :=
  ∀ seen machine machine', Watched verbosity begun past level seen machine machine' →
    match run machine, run' machine' with
    | .ok result left, .ok result' right =>
      result' = result ∧ Watched verbosity begun past level (seen ++ starts machine) left right
    | .error halt left, .error halt' right =>
      halt' = halt ∧ Watched verbosity begun past level (seen ++ starts machine) left right
    | _, _ => False

section Follows

variable {run run' : Run α} {next next' : α → Run β} {first : Machine → List Start}

/-- Two equal answers follow each other, and start nothing. -/
theorem follows_pure (result : α) :
    Follows verbosity begun past level (pure result) (pure result) fun _ => [] := by
  intro seen machine machine' hwatched
  rw [List.append_nil]
  exact ⟨rfl, hwatched⟩

/-- Two equal stops follow each other, and start nothing. -/
theorem follows_throw (halt : Halt) :
    Follows verbosity begun past level (throw halt : Run α) (throw halt) fun _ => [] := by
  intro seen machine machine' hwatched
  rw [List.append_nil]
  exact ⟨rfl, hwatched⟩

/-- One computation behind another. -/
theorem Follows.bind {second : α → Machine → List Start}
    (hrun : Follows verbosity begun past level run run' first)
    (hnext : ∀ result,
      Follows verbosity begun past level (next result) (next' result) (second result)) :
    Follows verbosity begun past level (run >>= next) (run' >>= next')
      fun machine => first machine ++ run.behind second machine := by
  intro seen machine machine' hwatched
  have hfirst := hrun seen machine machine' hwatched
  cases hfound : run machine with
  | ok result left =>
    cases hfound' : run' machine' with
    | ok result' right =>
      rw [hfound, hfound'] at hfirst
      obtain ⟨rfl, hwatched'⟩ := hfirst
      rw [bind_of_ok hfound, bind_of_ok hfound']
      dsimp only
      -- the second computations start from the machines that the first ones have left
      rw [behind_of_ok hfound, ← List.append_assoc]
      exact hnext result' _ left right hwatched'
    | error halt' right =>
      rw [hfound, hfound'] at hfirst
      exact hfirst.elim
  | error halt left =>
    cases hfound' : run' machine' with
    | ok result' right =>
      rw [hfound, hfound'] at hfirst
      exact hfirst.elim
    | error halt' right =>
      rw [hfound, hfound'] at hfirst
      rw [bind_of_error hfound, bind_of_error hfound']
      dsimp only
      rw [behind_of_error hfound, List.append_nil]
      exact hfirst

/-- The same starts, written in another way. -/
theorem Follows.congr {starts : Machine → List Start}
    (h : Follows verbosity begun past level run run' first)
    (hstarts : ∀ machine, starts machine = first machine) :
    Follows verbosity begun past level run run' starts := by
  intro seen machine
  rw [hstarts]
  exact h seen machine

/-- A computation behind another that starts nothing. -/
theorem Follows.followed (hrun : Follows verbosity begun past level run run' first)
    (hnext : ∀ result,
      Follows verbosity begun past level (next result) (next' result) fun _ => []) :
    Follows verbosity begun past level (run >>= next) (run' >>= next') first := by
  refine (hrun.bind hnext).congr fun machine => ?_
  cases hfound : run machine with
  | ok result left => rw [behind_of_ok hfound, List.append_nil]
  | error halt left => rw [behind_of_error hfound, List.append_nil]

/-- How stops are reported does not matter, if both are reported alike. -/
theorem Follows.adaptExcept (h : Follows verbosity begun past level run run' first)
    (report : Halt → Halt) :
    Follows verbosity begun past level (EStateM.adaptExcept report run)
      (EStateM.adaptExcept report run') first := by
  intro seen machine machine' hwatched
  have hrun := h seen machine machine' hwatched
  unfold EStateM.adaptExcept
  cases hfound : run machine <;> cases hfound' : run' machine' <;> rw [hfound, hfound'] at hrun
  · exact hrun
  · exact hrun.elim
  · exact hrun.elim
  · exact ⟨congrArg report hrun.1, hrun.2⟩

/-- Inside a block the level is one higher. -/
theorem Follows.nested (h : Follows verbosity begun past (level + 1) run run' first) :
    Follows verbosity begun past level (nested run) (nested run')
      fun machine => first { machine with depth := machine.depth + 1 } := by
  intro seen machine machine' hwatched
  -- one level deeper on both machines, and back again however the runs end
  have hopen : Watched verbosity begun past (level + 1) seen
      { machine with depth := machine.depth + 1 } { machine' with depth := machine'.depth + 1 } :=
    { hwatched with
      depth := congrArg (· + 1) hwatched.depth, depth' := congrArg (· + 1) hwatched.depth' }
  have hclosed {seen : List Start} {machine machine' : Machine}
      (hinside : Watched verbosity begun past (level + 1) seen machine machine') :
      Watched verbosity begun past level seen
        { machine with depth := machine.depth - 1 } { machine' with depth := machine'.depth - 1 } :=
    { hinside with
      depth := congrArg (· - 1) hinside.depth, depth' := congrArg (· - 1) hinside.depth' }
  have hrun := h seen _ _ hopen
  unfold Run.nested
  cases hfound : run { machine with depth := machine.depth + 1 } <;>
    cases hfound' : run' { machine' with depth := machine'.depth + 1 } <;>
    rw [hfound, hfound'] at hrun
  · exact ⟨hrun.1, hclosed hrun.2⟩
  · exact hrun.elim
  · exact hrun.elim
  · exact ⟨hrun.1, hclosed hrun.2⟩

/-- What is left behind, however the computations end. -/
theorem Follows.final {seen : List Start} {machine machine' : Machine}
    (h : Follows verbosity begun past level run run' first)
    (hwatched : Watched verbosity begun past level seen machine machine') :
    run'.outcome machine' = run.outcome machine ∧
      Watched verbosity begun past level (seen ++ first machine) (run.final machine)
        (run'.final machine') := by
  have hrun := h seen machine machine' hwatched
  unfold outcome Run.final
  cases hfound : run machine <;> cases hfound' : run' machine' <;> rw [hfound, hfound'] at hrun
  · exact ⟨congrArg Except.ok hrun.1, hrun.2⟩
  · exact hrun.elim
  · exact hrun.elim
  · exact ⟨congrArg Except.error hrun.1, hrun.2⟩

end Follows

/-- An event that is not traced is written into both journals. -/
theorem follows_record {event : Event} (h : event.isTrace = false) :
    Follows verbosity begun past level (record event) (record event) fun _ => [] := by
  intro seen machine machine' hwatched
  obtain ⟨written, hjournal, hjournal', htrace⟩ := hwatched.journal
  rw [List.append_nil]
  -- both runs write the event, and it is no entry of the trace
  refine ⟨rfl, { hwatched with journal := ⟨written ++ [event], ?_, ?_, ?_⟩ }⟩
  · show machine.journal ++ [event] = _
    rw [hjournal, List.append_assoc]
  · show machine'.journal ++ [event] = _
    rw [hjournal', List.filter_append, List.append_assoc, List.filter_cons_of_pos (by rw [h]; rfl)]
    rfl
  · rw [List.filter_append, htrace, List.filter_cons_of_neg (by rw [h]; nofun)]
    exact List.append_nil _

/-- Evaluating an expression neither starts a statement nor writes to the trace. -/
theorem closedEval_follows :
    ClosedEval (fun _ => True) fun run => Follows verbosity begun past level run run fun _ => [] where
  pure := follows_pure
  throw := follows_throw
  bind hrun hnext := hrun.followed hnext
  adaptExcept report h := h.adaptExcept report
  -- evaluation starts no statements, so the row of those seen stays as it is
  load name seen machine machine' hwatched := by
    rw [List.append_nil]
    refine ⟨?_, hwatched⟩
    rw [hwatched.bindings]
  settle yield seen machine machine' hwatched := by
    rw [List.append_nil]
    refine ⟨?_, { hwatched with nextHandle := congrArg (· + 1) hwatched.nextHandle }⟩
    rw [hwatched.nextHandle]
  store name value _ := by
    refine Follows.followed ?_ fun _ => follows_record rfl
    intro seen machine machine' hwatched
    rw [List.append_nil]
    exact ⟨rfl, { hwatched with
      bindings := congrArg (·.insert name value) hwatched.bindings }⟩

/-- A statement that is not to be traced is passed over. -/
theorem trace_of_not_isTraced {settings : Settings} (stmt : Stmt) {machine : Machine}
    (h : Stmt.isTraced settings.verbosity machine.depth = false) :
    stmt.trace settings machine = .ok () machine := by
  have hget : (get : Run Machine) machine = .ok machine machine := rfl
  rw [Stmt.trace, bind_of_ok hget, h]
  rfl

/-- A statement that has a text is traced, if it is to be, and counted. -/
theorem enter_eq {settings : Settings} {stmt : Stmt} (hrender : stmt.render? = some stmt.render)
    (hdepth : stmt.depth ≤ settings.limit) (machine : Machine) :
    stmt.enter settings machine =
      .ok () { machine with
        steps := machine.steps + 1
        counted := machine.counted + 1
        journal := machine.journal ++
          if Stmt.isTraced settings.verbosity machine.depth then
            (⟨stmt, machine.depth, machine.bindings⟩ : Start).entry machine.steps
          else [] } := by
  cases htraced : Stmt.isTraced settings.verbosity machine.depth with
  | true =>
    have hget : (get : Run Machine) machine = .ok machine machine := rfl
    -- the statement fits, so its entry is completed before it is counted
    have hrun : stmt.trace settings machine = .ok () { machine with
        journal := machine.journal ++
          (⟨stmt, machine.depth, machine.bindings⟩ : Start).entry machine.steps } := by
      rw [Stmt.trace, bind_of_ok hget, if_pos htraced, if_neg (Nat.not_lt.2 hdepth), hrender]
      show EStateM.Result.ok () { machine with journal := _ } = _
      rw [List.append_assoc]
      rfl
    rw [Stmt.enter, bind_of_ok hrun]
    rfl
  | false =>
    rw [Stmt.enter, bind_of_ok (trace_of_not_isTraced stmt htraced), if_neg Bool.false_ne_true,
      List.append_nil]
    rfl

/-- What is written for a statement is its entry. -/
theorem follows_start {limit : Nat} {stmt : Stmt} (hrender : stmt.render? = some stmt.render)
    (hdepth : stmt.depth ≤ limit) :
    Follows verbosity begun past level (stmt.enter { verbosity, limit })
      (stmt.enter { verbosity := 0, limit }) fun machine => [⟨stmt, level, machine.bindings⟩] := by
  intro seen machine machine' hwatched
  obtain ⟨written, hjournal, hjournal', htrace⟩ := hwatched.journal
  rw [enter_eq hrender hdepth, enter_eq hrender hdepth]
  -- both machines count the statement, and only the traced one writes an entry for it
  have hquiet : Stmt.isTraced 0 machine'.depth = false := rfl
  have hsteps : begun + (seen ++ [(⟨stmt, level, machine.bindings⟩ : Start)]).length =
      begun + seen.length + 1 := by
    rw [List.length_append, ← Nat.add_assoc]
    rfl
  refine ⟨rfl, { hwatched with steps := ?_, steps' := ?_, journal := ⟨written ++
    (if Stmt.isTraced verbosity level then
      (⟨stmt, level, machine.bindings⟩ : Start).entry (begun + seen.length) else []), ?_, ?_, ?_⟩ }⟩
  · rw [hsteps, ← hwatched.steps]
  · rw [hsteps, ← hwatched.steps']
  · rw [hwatched.depth, hwatched.steps, hjournal, List.append_assoc]
  · rw [hquiet, if_neg Bool.false_ne_true, List.append_nil, hjournal', List.filter_append]
    split
    · rw [(Start.filter_entry _ _).2, List.append_nil]
    · rw [List.filter_nil, List.append_nil]
  · rw [List.filter_append, htrace, Start.entries_append, Start.entries, Start.entries,
      List.append_nil]
    split
    · rw [(Start.filter_entry _ _).1]
    · rw [List.filter_nil]

end Run

namespace Stmt

open Run

variable {verbosity begun : Nat} {past : List Event} {limit : Nat} {literal : Nat → Prop}

mutual

/-- Executing a statement, traced and not traced. -/
theorem follows_execute : ∀ {level : Nat} (stmt : Stmt), stmt.IsSpelled literal →
    stmt.depth ≤ limit →
    Follows verbosity begun past level (stmt.execute { verbosity, limit })
      (stmt.execute { verbosity := 0, limit }) (stmt.starts { verbosity, limit } level)
  | level, .expression expr _, _, _ => by
    rw [execute, execute]
    refine ((closedEval_follows.evalWithin limit fun _ _ => trivial).followed
      fun value => follows_pure _).congr fun _ => by rw [starts]
  | level, .print expr _, _, _ => by
    rw [execute, execute]
    refine ((closedEval_follows.evalWithin limit fun _ _ => trivial).followed
      fun value => ?_).congr fun _ => by rw [starts]
    exact (follows_record rfl).followed fun _ => follows_pure _
  | level, .ret expr _, _, _ => by
    rw [execute_ret, execute_ret]
    refine ((closedEval_follows.evalWithin limit fun _ _ => trivial).followed
      fun value => ?_).congr fun _ => by rw [starts]
    exact (closedEval_follows.ofExcept _).followed fun _ => follows_throw _
  | level, .block body _, h, hdepth => by
    -- the block counts as a level of the limit and of the trace
    rw [depth] at hdepth
    rw [execute, execute]
    refine ((follows_executeAll body h (Nat.le_of_succ_le hdepth)).nested.followed
      fun _ => follows_pure _).congr fun _ => by rw [starts]
  | level, .cond condition body _, ⟨_, hbody⟩, hdepth => by
    rw [depth] at hdepth
    rw [execute, execute]
    refine ((closedEval_follows.holds _ fun _ _ => trivial).bind fun truth => ?_).congr
      fun _ => by rw [starts, List.nil_append]
    cases truth with
    | true => exact (follows_execute body hbody (by omega)).followed fun _ => follows_pure _
    | false => exact follows_pure _
  | level, .condElse condition body other _, ⟨_, hbody, hother⟩, hdepth => by
    rw [depth] at hdepth
    rw [execute, execute]
    refine ((closedEval_follows.holds _ fun _ _ => trivial).bind fun truth => ?_).congr
      fun _ => by rw [starts, List.nil_append]
    cases truth with
    | true => exact (follows_execute body hbody (by omega)).followed fun _ => follows_pure _
    | false => exact (follows_execute other hother (by omega)).followed fun _ => follows_pure _
  | _, .misplaced _, h, _ => h.elim

/-- **Executing statements in order, traced and not traced**: the trace is that of the statements
that are started. -/
theorem follows_executeAll : ∀ {level : Nat} (row : List Stmt), AreSpelled literal row →
    depthAll row ≤ limit →
    Follows verbosity begun past level (executeAll { verbosity, limit } row)
      (executeAll { verbosity := 0, limit } row) (startsAll { verbosity, limit } level row)
  | level, [], _, _ => by
    rw [executeAll, executeAll]
    exact (follows_pure _).congr fun _ => by rw [startsAll]
  | level, first :: rest, ⟨hfirst, hrest⟩, hdepth => by
    rw [depthAll] at hdepth
    rw [executeAll_cons, executeAll_cons]
    have hfirstDepth : first.depth ≤ limit := by omega
    have hrestDepth : depthAll rest ≤ limit := by omega
    have hrender := render?_of_isSpelled hfirst
    -- the statement is started, then executed, and unless it stops the others follow
    refine ((follows_start hrender hfirstDepth).bind fun _ => ?_).congr fun machine => by
      rw [startsAll, List.singleton_append]
    refine (((follows_execute first hfirst hfirstDepth).adaptExcept _).bind fun result => ?_).congr
      fun machine' => by rw [behind_adaptExcept]
    exact (follows_executeAll rest hrest hrestDepth).followed fun last => follows_pure _

end

end Stmt

end Scriptlet
