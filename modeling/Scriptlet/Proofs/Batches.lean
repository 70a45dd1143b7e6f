import Mathlib
import Scriptlet.CommandLine
import Scriptlet.Proofs.Dialogue

/-! # Batches of sources

A runner carries out sources one after the other, each in the bindings that those before it left,
until one of them stops it. What carrying out one source does is said once, in `carryOut_eq`; what
becomes of a whole row follows by induction.

* `Trial`: a source and the reply to it; `trials`: those of a row of sources.
* `carryOut_eq`: what carrying out one source does.
* `carryOutAll_of_quiet`, `carryOutAll_of_stop`: what carrying out a row of them does.
* `batch_settles`: the status and the statistics of a batch.
* `batch_beside_files`: a batch and the same files as tasks differ in the statistics of a program
  that ends itself, and in nothing else. -/

namespace Scriptlet

/-! ## Trials -/

/-- A source that was carried out, and the reply to it. -/
structure Trial where
  /-- The source. -/
  source : Source
  /-- The reply to it. -/
  reply : Reply (Option Value)

namespace Trial

/-- The status with which the program ended itself, if it did. -/
def status? (trial : Trial) : Option Int :=
  match trial.reply.outcome with
  | .error (.halted (.ended status _)) => some status
  | _ => none

/-- The problem that the source came to, if it came to one. -/
def problem? (trial : Trial) : Option Problem :=
  match trial.reply.outcome with
  | .ok _ => none
  | .error failure => Problem.ofFailure? failure

/-- Whether the program ran to its end. -/
def isCompleted (trial : Trial) : Bool :=
  trial.status?.isNone && trial.problem?.isNone

/-- Whether nothing more is carried out: the program ended itself, or there is a problem that is not
ignored. -/
def stops (ignore : Bool) (trial : Trial) : Bool :=
  trial.status?.isSome || (trial.problem?.isSome && !ignore)

/-- The write that shows a result, if there is one and it is asked for. -/
def resultWrites (showResult : Bool) : Option Value → List Write
  | some value => if showResult then [⟨.output, value.shown ++ "\n"⟩] else []
  | none => []

/-- What is written behind what the program prints and traces: its result, or the report of its
problem. -/
def remarks (showResult : Bool) (trial : Trial) : List Write :=
  match trial.reply.outcome with
  | .ok result => resultWrites showResult result
  | .error failure =>
    match Problem.ofFailure? failure with
    | some problem => (problem.report trial.source.filename trial.source.text).map (⟨.error, ·⟩)
    | none => []

/-- What is written. -/
def writes (showResult : Bool) (trial : Trial) : List Write :=
  trial.reply.journal.filterMap Event.write? ++ trial.remarks showResult

/-- Why nothing more is carried out. -/
def reason (trial : Trial) : Break :=
  match trial.status? with
  | some status => .ended status
  | none => .aborted

/-- How many statements were started in trials. -/
def totalSteps (trials : List Trial) : Nat :=
  (trials.map (·.reply.steps)).sum

section Outcome

/-- A source that ran to its end has no status, and came to no problem. -/
theorem status?_of_ok (trial : Trial) {result : Option Value} (h : trial.reply.outcome = .ok result) :
    trial.status? = none ∧ trial.problem? = none := by
  simp only [status?, problem?, h, and_self]

/-- A program that ended itself has its status, and came to no problem. -/
theorem status?_of_ended (trial : Trial) {status : Int} {value : Value}
    (h : trial.reply.outcome = .error (.halted (.ended status value))) :
    trial.status? = some status ∧ trial.problem? = none := by
  simp only [status?, problem?, h, Problem.ofFailure?, and_self]

/-- A source that came to a problem has no status. -/
theorem status?_of_problem (trial : Trial) {failure : Failure} {problem : Problem}
    (h : trial.reply.outcome = .error failure) (hproblem : Problem.ofFailure? failure = some problem) :
    trial.status? = none ∧ trial.problem? = some problem := by
  refine ⟨?_, by simp only [problem?, h, hproblem]⟩
  -- a program that ended itself would be no problem
  unfold status?
  split
  · rename_i hended
    cases h.symm.trans hended
    cases hproblem
  · rfl

variable {trial : Trial}

/-- A program that ended itself came to no problem. -/
theorem problem?_of_status? {status : Int} (h : trial.status? = some status) :
    trial.problem? = none := by
  unfold status? at h
  split at h
  · rename_i hended
    exact (trial.status?_of_ended hended).2
  · cases h

/-- A source that comes to a problem stops the runner if problems are not ignored. -/
theorem stops_of_problem? (h : trial.problem?.isSome = true) : trial.stops false = true := by
  rw [stops, h]
  exact Bool.or_true _

/-- A source that comes to a problem does not stop the runner if problems are ignored. -/
theorem stops_of_ignored (h : trial.problem?.isSome = true) : trial.stops true = false := by
  have hstatus : trial.status?.isSome = false := by
    cases hstatus : trial.status? with
    | none => rfl
    | some status =>
      rw [problem?_of_status? hstatus] at h
      cases h
  rw [stops, hstatus, Bool.not_true, Bool.and_false, Bool.or_false]

/-- A program that ends itself stops the runner. -/
theorem stops_of_status? {status : Int} (h : trial.status? = some status) (ignore : Bool) :
    trial.stops ignore = true := by
  rw [stops, h]
  rfl

/-- What does not stop the runner is completed, unless it comes to a problem. -/
theorem isCompleted_of_quiet {ignore : Bool} (h : trial.stops ignore = false) :
    trial.isCompleted = trial.problem?.isNone := by
  rw [stops, Bool.or_eq_false_iff, Option.isSome_eq_false_iff] at h
  rw [isCompleted, h.1, Bool.true_and]

end Outcome

end Trial

namespace Runner

/-- The trial of a source in the session of a runner. -/
def trial (runner : Runner) (source : Source) : Trial :=
  ⟨source, runner.replyTo source⟩

/-- The runner behind a source that was carried out. -/
def behind (showResult : Bool) (runner : Runner) (trial : Trial) : Runner :=
  { runner with
    session := trial.reply.session
    steps := runner.steps + trial.reply.steps
    failure := runner.failure || trial.problem?.isSome
    completed := runner.completed + (if trial.isCompleted then 1 else 0)
    writes := runner.writes ++ trial.writes showResult }

/-! ## One source -/

section CarryOut

variable {runner : Runner} {source : Source}

/-- What is made of the outcome when a source was run. -/
def conclude (showResult : Bool) (source : Source) : Except Failure (Option Value) → Action Unit
  | .ok result => do
    match result with
    | some value => if showResult then put .output (value.shown ++ "\n")
    | none => pure ()
    modify fun runner => { runner with completed := runner.completed + 1 }
  | .error (.halted (.ended status _)) => throw (.ended status)
  | .error failure =>
    match Problem.ofFailure? failure with
    | some problem => do let _ ← handle source false problem
    | none => pure ()

/-- Carrying out a source begins with the reply to it. -/
theorem carryOut_eq_conclude (showResult : Bool) (source : Source) (runner : Runner) :
    carryOut showResult source runner = conclude showResult source (runner.replyTo source).outcome
      (runner.carried (runner.replyTo source)) :=
  rfl

/-- A source that runs to its end leaves the runner behind it, to go on. -/
theorem carryOut_of_ok (showResult : Bool) {result : Option Value}
    (h : (runner.replyTo source).outcome = .ok result) :
    carryOut showResult source runner = .ok () (runner.behind showResult (runner.trial source)) := by
  obtain ⟨hstatus, hproblem⟩ := (runner.trial source).status?_of_ok h
  have hremarks : (runner.trial source).remarks showResult =
      Trial.resultWrites showResult result := by
    simp only [Trial.remarks, trial, h]
  rw [carryOut_eq_conclude, h]
  simp only [behind, Trial.isCompleted, Trial.writes, hstatus, hproblem, hremarks,
    Option.isSome_none, Bool.or_false, Option.isNone_none, Bool.and_self, if_true,
    ← List.append_assoc]
  -- a result is shown only if it is asked for
  cases result with
  | none =>
    rw [Trial.resultWrites, List.append_nil]
    rfl
  | some value =>
    cases showResult with
    | true => rfl
    | false =>
      rw [Trial.resultWrites, if_neg Bool.false_ne_true, List.append_nil]
      rfl

/-- A program that ends itself breaks the runner off with its status. -/
theorem carryOut_of_ended (showResult : Bool) {status : Int} {value : Value}
    (h : (runner.replyTo source).outcome = .error (.halted (.ended status value))) :
    carryOut showResult source runner =
      .error (.ended status) (runner.behind showResult (runner.trial source)) := by
  obtain ⟨hstatus, hproblem⟩ := (runner.trial source).status?_of_ended h
  have hremarks : (runner.trial source).remarks showResult = [] := by
    simp only [Trial.remarks, trial, h, Problem.ofFailure?]
  rw [carryOut_eq_conclude, h]
  simp only [behind, Trial.isCompleted, Trial.writes, hstatus, hproblem, hremarks,
    Option.isSome_none, Bool.or_false, Option.isNone_some, Bool.false_and, Bool.false_eq_true,
    if_false, List.append_nil]
  rfl

/-- A problem outside of an interactive session is reported, and ends the process unless problems are
ignored. -/
theorem handle_eq (source : Source) (problem : Problem) (runner : Runner) :
    (do let _ ← handle source false problem : Action Unit) runner =
      let after := { runner.wrote ((problem.report source.filename source.text).map (⟨.error, ·⟩)) with
        failure := true }
      if runner.config.ignore then .ok () after else .error .aborted after := by
  obtain ⟨⟨verbosity, ignore, stats, plain, defines⟩, session, steps, failure, status, completed,
    input, writes⟩ := runner
  cases ignore with
  | true => rfl
  | false => rfl

/-- A problem breaks the runner off, unless problems are ignored. -/
theorem carryOut_of_problem (showResult : Bool) {failure : Failure} {problem : Problem}
    (h : (runner.replyTo source).outcome = .error failure)
    (hproblem : Problem.ofFailure? failure = some problem) :
    carryOut showResult source runner =
      if runner.config.ignore then .ok () (runner.behind showResult (runner.trial source))
      else .error .aborted (runner.behind showResult (runner.trial source)) := by
  obtain ⟨hstatus, hfailed⟩ := (runner.trial source).status?_of_problem h hproblem
  have hremarks : (runner.trial source).remarks showResult =
      (problem.report source.filename source.text).map (⟨.error, ·⟩) := by
    simp only [Trial.remarks, trial, h, hproblem]
  -- of the three ways to conclude only the last fits a problem
  have hconclude : conclude showResult source (.error failure) =
      (do let _ ← handle source false problem) := by
    unfold conclude
    split
    · rename_i hended
      cases hended
    · rename_i hended
      cases hended
      cases hproblem
    · rename_i hfailure
      cases hfailure
      rw [hproblem]
  rw [carryOut_eq_conclude, h, hconclude, handle_eq]
  simp only [behind, Trial.isCompleted, Trial.writes, hstatus, hfailed, hremarks,
    Option.isSome_some, Bool.or_true, Option.isNone_some, Bool.and_false, Bool.false_eq_true,
    if_false, ← List.append_assoc]
  rfl

/-- **What carrying out one source does.** -/
theorem carryOut_eq (showResult : Bool) (source : Source) (runner : Runner) :
    carryOut showResult source runner =
      if (runner.trial source).stops runner.config.ignore then
        .error (runner.trial source).reason (runner.behind showResult (runner.trial source))
      else .ok () (runner.behind showResult (runner.trial source)) := by
  cases houtcome : (runner.replyTo source).outcome with
  | ok result =>
    obtain ⟨hstatus, hproblem⟩ := (runner.trial source).status?_of_ok houtcome
    rw [carryOut_of_ok showResult houtcome, Trial.stops, hstatus, hproblem]
    rfl
  | error failure =>
    cases hproblem : Problem.ofFailure? failure with
    | none =>
      -- the only failure that is no problem is a program that ended itself
      obtain ⟨status, value, rfl⟩ := Prompt.ended_of_ofFailure?_eq_none hproblem
      obtain ⟨hstatus, -⟩ := (runner.trial source).status?_of_ended houtcome
      rw [carryOut_of_ended showResult houtcome, Trial.stops, Trial.reason, hstatus]
      rfl
    | some problem =>
      obtain ⟨hstatus, hfailed⟩ :=
        (runner.trial source).status?_of_problem houtcome hproblem
      rw [carryOut_of_problem showResult houtcome hproblem, Trial.stops, Trial.reason, hstatus,
        hfailed]
      cases runner.config.ignore with
      | true => rfl
      | false => rfl

end CarryOut

end Runner

/-! ## Rows of sources -/

/-- The trials of sources that are run one after the other, each in the session that those before it
left, whatever came of them. -/
def Session.trials (verbosity : Nat) : Session → List Source → List Trial
  | _, [] => []
  | session, source :: rest =>
    let reply := session.run { verbosity } (some source.filename) source.text
    ⟨source, reply⟩ :: reply.session.trials verbosity rest

namespace Runner

/-- The runner behind sources that were carried out. -/
def behindAll (runner : Runner) (trials : List Trial) : Runner :=
  trials.foldl (behind false) runner

section BehindAll

variable (runner : Runner) (trials : List Trial)

/-- Trials do not change the configuration. -/
theorem config_behindAll : (runner.behindAll trials).config = runner.config := by
  induction trials generalizing runner with
  | nil => rfl
  | cons trial rest ih => exact ih (runner.behind false trial)

/-- The statements that trials started are added up. -/
theorem steps_behindAll :
    (runner.behindAll trials).steps = runner.steps + Trial.totalSteps trials := by
  induction trials generalizing runner with
  | nil => rfl
  | cons trial rest ih =>
    rw [Trial.totalSteps, List.map_cons, List.sum_cons, ← Nat.add_assoc]
    exact ih (runner.behind false trial)

/-- The trials that ran to their end are counted. -/
theorem completed_behindAll :
    (runner.behindAll trials).completed = runner.completed + trials.countP (·.isCompleted) := by
  induction trials generalizing runner with
  | nil => rfl
  | cons trial rest ih =>
    rw [List.countP_cons, Nat.add_comm (rest.countP _), ← Nat.add_assoc]
    exact ih (runner.behind false trial)

/-- What trials write stands behind what was written, in their order. -/
theorem writes_behindAll :
    (runner.behindAll trials).writes = runner.writes ++ trials.flatMap (Trial.writes false) := by
  induction trials generalizing runner with
  | nil => exact (List.append_nil _).symm
  | cons trial rest ih =>
    rw [List.flatMap_cons, ← List.append_assoc]
    exact ih (runner.behind false trial)

end BehindAll

section CarryOutAll

variable {runner : Runner} {sources : List Source}

/-- A row of sources is carried out by its first source and, unless that stops it, the others. -/
theorem carryOutAll_cons (source : Source) (rest : List Source) (runner : Runner) :
    carryOutAll (source :: rest) runner =
      if (runner.trial source).stops runner.config.ignore then
        .error (runner.trial source).reason (runner.behind false (runner.trial source))
      else carryOutAll rest (runner.behind false (runner.trial source)) := by
  have hbind : carryOutAll (source :: rest) runner =
      EStateM.bind (carryOut false source) (fun _ => carryOutAll rest) runner := rfl
  rw [hbind, EStateM.bind, carryOut_eq]
  cases (runner.trial source).stops runner.config.ignore with
  | true => rfl
  | false => rfl

/-- The first trial is of the session as it is, and the others are of the session it leaves. -/
theorem trials_cons (runner : Runner) (source : Source) (rest : List Source) :
    runner.session.trials runner.config.verbosity (source :: rest) =
      runner.trial source ::
        (runner.behind false (runner.trial source)).session.trials
          (runner.behind false (runner.trial source)).config.verbosity rest :=
  rfl

/-- **Sources that do not stop the runner are all carried out.** -/
theorem carryOutAll_of_quiet
    (h : ∀ trial ∈ runner.session.trials runner.config.verbosity sources,
      trial.stops runner.config.ignore = false) :
    carryOutAll sources runner =
      .ok () (runner.behindAll (runner.session.trials runner.config.verbosity sources)) := by
  induction sources generalizing runner with
  | nil => rfl
  | cons source rest ih =>
    rw [trials_cons] at h ⊢
    rw [carryOutAll_cons, h _ List.mem_cons_self, if_neg Bool.false_ne_true]
    exact ih fun trial hmem => h trial (List.mem_cons_of_mem _ hmem)

/-- **The first source that stops the runner is the last that is carried out.** -/
theorem carryOutAll_of_stop {before after : List Trial} {trial : Trial}
    (htrials : runner.session.trials runner.config.verbosity sources = before ++ trial :: after)
    (hbefore : ∀ earlier ∈ before, earlier.stops runner.config.ignore = false)
    (hstops : trial.stops runner.config.ignore = true) :
    carryOutAll sources runner = .error trial.reason (runner.behindAll (before ++ [trial])) := by
  induction sources generalizing runner before with
  | nil => exact absurd htrials (by simp [Session.trials])
  | cons source rest ih =>
    rw [trials_cons] at htrials
    -- the first source is the one that stops the runner, or one of those before it
    cases before with
    | nil =>
      obtain ⟨rfl, -⟩ := List.cons.inj htrials
      rw [carryOutAll_cons, hstops, if_pos rfl]
      rfl
    | cons first others =>
      obtain ⟨rfl, hrest⟩ := List.cons.inj htrials
      rw [carryOutAll_cons, hbefore _ List.mem_cons_self, if_neg Bool.false_ne_true]
      exact ih hrest (fun earlier hmem => hbefore earlier (List.mem_cons_of_mem _ hmem)) hstops

end CarryOutAll

/-! ## Batches -/

/-- The statistics of some number of statements, as they are written. -/
def statisticsWrites (steps : Nat) : List Write :=
  (statistics { steps }).map (⟨.output, ·⟩)

/-- A runner that finishes writes the statistics if they are asked for and a source was completed. -/
theorem finish_eq (runner : Runner) :
    finish runner = .ok runner.exitStatus (runner.wrote
      (if runner.config.stats && decide (0 < runner.completed) then statisticsWrites runner.steps
      else [])) := by
  have hfinish : finish runner =
      (do
        if runner.config.stats && decide (0 < runner.completed) then
          putAll .output runner.statistics
        else pure ()
        return runner.exitStatus : Action Int) runner := rfl
  rw [hfinish, wrote]
  -- the statistics are written, or nothing is
  cases runner.config.stats && decide (0 < runner.completed) with
  | true => rfl
  | false =>
    rw [if_neg Bool.false_ne_true, if_neg Bool.false_ne_true, List.append_nil]
    rfl

/-- What comes of a process whose runner finishes. -/
theorem ofResult_finish (runner : Runner) :
    CommandLine.Outcome.ofResult (finish runner) =
      ⟨.exited runner.exitStatus, runner.writes ++
        if runner.config.stats && decide (0 < runner.completed) then statisticsWrites runner.steps
        else []⟩ := by
  rw [finish_eq]
  rfl

section Batch

variable {runner : Runner} {sources : List Source}

/-- A batch that nothing stops is closed with its statistics. -/
theorem batch_of_ok {after : Runner} (h : carryOutAll sources runner = .ok () after) :
    batch sources runner = finish after := by
  rw [batch, h]

/-- A batch that a program stops counts that program before it is closed. -/
theorem batch_of_ended {status : Int} {after : Runner}
    (h : carryOutAll sources runner = .error (.ended status) after) :
    batch sources runner =
      finish { after with completed := after.completed + 1, status := some status } := by
  rw [batch, h]

/-- A batch that is broken off is not closed. -/
theorem batch_of_aborted {after : Runner} (h : carryOutAll sources runner = .error .aborted after) :
    batch sources runner = .error .aborted after := by
  rw [batch, h]

end Batch

/-- What sources that were carried out have written. -/
def told (trials : List Trial) : List Write :=
  trials.flatMap (Trial.writes false)

/-- The statistics of sources that were carried out: they are written if they are asked for and one
of the sources came to no problem, and tell the number of statements of all of them. -/
def statisticsOf (config : Config) (trials : List Trial) : List Write :=
  if config.stats && trials.any (·.problem?.isNone) then
    statisticsWrites (Trial.totalSteps trials)
  else []

/-- What comes of a process whose runner finishes behind sources, the last of which ended itself. It
may be counted among those that were completed. -/
theorem ofResult_finish_ended (config : Config) (session : Session) (input : List String)
    (trials : List Trial) (status : Int) (further : Nat) :
    let after := behindAll { config, session, input } trials
    CommandLine.Outcome.ofResult
        (finish { after with completed := after.completed + further, status := some status }) =
      ⟨.exited status,
        told trials ++
          if config.stats && decide (0 < trials.countP (·.isCompleted) + further) then
            statisticsWrites (Trial.totalSteps trials)
          else []⟩ := by
  intro after
  rw [ofResult_finish]
  simp only [after, exitStatus, config_behindAll, completed_behindAll, steps_behindAll,
    writes_behindAll, Option.getD_some, Nat.zero_add, List.nil_append, told]

/-- The statistics of a row of sources whose last one ended itself. -/
theorem statisticsOf_concat (config : Config) (before : List Trial) {trial : Trial} {status : Int}
    (h : trial.status? = some status) :
    statisticsOf config (before ++ [trial]) =
      if config.stats then statisticsWrites (Trial.totalSteps (before ++ [trial]))
      else [] := by
  have hany : (before ++ [trial]).any (·.problem?.isNone) = true := by
    rw [List.any_append, List.any_cons, Trial.problem?_of_status? h]
    exact Bool.or_true _
  rw [statisticsOf, hany, Bool.and_true]

section Outcomes

variable (config : Config) {session : Session} (input : List String) {sources : List Source}
  {before after : List Trial} {trial : Trial}

/-- A program that ends itself ends a batch with its status, and counts as carried out. -/
theorem ofResult_batch_of_status {status : Int}
    (htrials : session.trials config.verbosity sources = before ++ trial :: after)
    (hbefore : ∀ earlier ∈ before, earlier.stops config.ignore = false)
    (hstatus : trial.status? = some status) :
    CommandLine.Outcome.ofResult (batch sources { config, session, input }) =
      ⟨.exited status, told (before ++ [trial]) ++ statisticsOf config (before ++ [trial])⟩ := by
  have hreason : trial.reason = .ended status := by rw [Trial.reason, hstatus]
  have hrow : carryOutAll sources { config, session, input } = _ :=
    carryOutAll_of_stop htrials hbefore (Trial.stops_of_status? hstatus _)
  rw [hreason] at hrow
  -- the program is counted itself, so at least one is
  have hcounted : decide (0 < (before ++ [trial]).countP (·.isCompleted) + 1) = true :=
    decide_eq_true (Nat.succ_pos _)
  rw [batch_of_ended hrow, ofResult_finish_ended, hcounted, Bool.and_true,
    statisticsOf_concat config before hstatus]

end Outcomes

end Runner

/-! ## Files as tasks -/

/-- What is written to a channel in the end: on a plain stream without colour codes. -/
def Channel.shown (channel : Channel) (config : Config) (writes : List Write) : String :=
  channel.text (if config.plain then writes.map Write.plain else writes)

section Channel

variable (channel : Channel)

/-- What two rows of writes put on a channel is put there in turn. -/
theorem Channel.text_append (writes further : List Write) :
    channel.text (writes ++ further) = channel.text writes ++ channel.text further := by
  rw [text, text, text, List.filter_append, List.map_append, String.join_append]

/-- What two rows of writes show on a channel is shown in turn. -/
theorem Channel.shown_append (config : Config) (writes further : List Write) :
    channel.shown config (writes ++ further) =
      channel.shown config writes ++ channel.shown config further := by
  unfold shown
  split
  · rw [List.map_append, text_append]
  · rw [text_append]

end Channel

/-- The statistics are seen on the output. -/
theorem Runner.shown_statisticsWrites (config : Config) (steps : Nat) :
    Channel.output.shown config (statisticsWrites steps) ≠ "" := by
  -- already the heading is seen, in colours and without
  have hheading : Text.stripColour ("\n" ++ Text.heading " STATISTICS. " ++ "\n") =
      "\n STATISTICS. \n" := by decide +kernel
  unfold Channel.shown
  intro hempty
  replace hempty := congrArg String.toList hempty
  cases hplain : config.plain with
  | true =>
    simp [hplain, Channel.text, statisticsWrites, statistics, Write.plain, hheading] at hempty
  | false =>
    simp [hplain, Channel.text, statisticsWrites, statistics] at hempty

namespace CommandLine

/-- The tasks of carrying out files. -/
def fileTasks (sources : List Source) : List Task :=
  sources.map fun source => .file source.filename

/-- Statistics are lost where sources are carried out as tasks: they are asked for, and a program
ends itself while all sources before it came to problems, which are ignored. -/
def LosesStatistics (config : Config) (trials : List Trial) : Prop :=
  config.stats = true ∧ ∃ before trial after, trials = before ++ trial :: after ∧
    (∀ earlier ∈ before, earlier.problem?.isSome = true ∧ config.ignore = true) ∧
    trial.status?.isSome = true

section Files

variable {disk : Disk} {sources : List Source} {runner : Runner}

/-- Files that can be read are carried out as sources. -/
theorem carryOutTasks_fileTasks (index : Nat)
    (hread : ∀ source ∈ sources, disk.read source.filename = .ok source.text) :
    carryOutTasks disk index (fileTasks sources) = Runner.carryOutAll sources := by
  induction sources with
  | nil => rfl
  | cons source rest ih =>
    rw [fileTasks, List.map_cons, carryOutTasks, hread source List.mem_cons_self]
    rw [fileTasks] at ih
    rw [ih fun source hmem => hread source (List.mem_cons_of_mem _ hmem)]
    rfl

variable (hsources : sources ≠ [])
  (hread : ∀ source ∈ sources, disk.read source.filename = .ok source.text)

include hsources hread

/-- Files that nothing stops are closed with their statistics. -/
theorem perform_of_ok {after : Runner} (h : Runner.carryOutAll sources runner = .ok () after) :
    perform disk (fileTasks sources) runner = Runner.finish after := by
  have hempty : (fileTasks sources).isEmpty = false := by
    rw [fileTasks, List.isEmpty_map]
    exact List.isEmpty_eq_false_iff.2 hsources
  rw [perform, carryOutTasks_fileTasks 1 hread, h]
  dsimp only
  rw [hempty, if_neg Bool.false_ne_true]

omit hsources in
/-- Files that a program stops are closed without counting that program. -/
theorem perform_of_ended {status : Int} {after : Runner}
    (h : Runner.carryOutAll sources runner = .error (.ended status) after) :
    perform disk (fileTasks sources) runner = Runner.finish { after with status := some status } := by
  rw [perform, carryOutTasks_fileTasks 1 hread, h]

omit hsources in
/-- Files that are broken off are not closed. -/
theorem perform_of_aborted {after : Runner}
    (h : Runner.carryOutAll sources runner = .error .aborted after) :
    perform disk (fileTasks sources) runner = .error .aborted after := by
  rw [perform, carryOutTasks_fileTasks 1 hread, h]

end Files

/-- A row of sources is carried out to its end, or one of them is the first that stops the runner. -/
theorem quiet_or_stops (ignore : Bool) (trials : List Trial) :
    (∀ trial ∈ trials, trial.stops ignore = false) ∨
      ∃ before trial after, trials = before ++ trial :: after ∧
        (∀ earlier ∈ before, earlier.stops ignore = false) ∧ trial.stops ignore = true := by
  cases hfind : trials.find? (·.stops ignore) with
  | none =>
    refine .inl fun trial hmem => ?_
    simpa using List.find?_eq_none.1 hfind trial hmem
  | some trial =>
    obtain ⟨hstops, before, after, htrials, hbefore⟩ := List.find?_eq_some_iff_append.1 hfind
    exact .inr ⟨before, trial, after, htrials, fun earlier hmem => by simpa using hbefore earlier hmem,
      hstops⟩

/-- A program that ends itself ends the tasks with its status, and does not count as carried out. -/
theorem ofResult_perform_of_status {disk : Disk} {sources : List Source} (config : Config)
    {session : Session} (input : List String)
    (hread : ∀ source ∈ sources, disk.read source.filename = .ok source.text)
    {before after : List Trial} {trial : Trial} {status : Int}
    (htrials : session.trials config.verbosity sources = before ++ trial :: after)
    (hbefore : ∀ earlier ∈ before, earlier.stops config.ignore = false)
    (hstatus : trial.status? = some status) :
    Outcome.ofResult (perform disk (fileTasks sources) { config, session, input }) =
      ⟨.exited status, Runner.told (before ++ [trial]) ++
        if config.stats && decide (0 < before.countP (·.isCompleted)) then
          Runner.statisticsWrites (Trial.totalSteps (before ++ [trial]))
        else []⟩ := by
  have hreason : trial.reason = .ended status := by rw [Trial.reason, hstatus]
  have hrow : Runner.carryOutAll sources { config, session, input } = _ :=
    Runner.carryOutAll_of_stop htrials hbefore (Trial.stops_of_status? hstatus _)
  rw [hreason] at hrow
  -- the program itself does not count here
  have hcount : (before ++ [trial]).countP (·.isCompleted) + 0 = before.countP (·.isCompleted) := by
    simp [Trial.isCompleted, hstatus]
  have hfinish := Runner.ofResult_finish_ended config session input (before ++ [trial]) status 0
  rw [hcount] at hfinish
  rw [perform_of_ended hread hrow]
  exact hfinish

section Beside

variable {disk : Disk} {config : Config} {session : Session} {sources : List Source}

/-- Where statistics are lost, a batch writes them behind what the same files write as tasks. -/
theorem ofResult_batch_of_loss (input : List String)
    (hread : ∀ source ∈ sources, disk.read source.filename = .ok source.text)
    (h : LosesStatistics config (session.trials config.verbosity sources)) :
    let whole := Outcome.ofResult (Runner.batch sources { config, session, input })
    let files := Outcome.ofResult (perform disk (fileTasks sources) { config, session, input })
    whole.ending = files.ending ∧
      ∃ steps, whole.writes = files.writes ++ Runner.statisticsWrites steps := by
  intro whole files
  obtain ⟨hstats, before, trial, after, htrials, hearlier, hsome⟩ := h
  obtain ⟨status, hstatus⟩ := Option.isSome_iff_exists.1 hsome
  have hbefore : ∀ earlier ∈ before, earlier.stops config.ignore = false := by
    intro earlier hmem
    obtain ⟨hproblem, hignore⟩ := hearlier earlier hmem
    exact hignore ▸ Trial.stops_of_ignored hproblem
  -- none of those before has run to its end, so the files show no statistics
  have hcount : before.countP (·.isCompleted) = 0 := by
    refine List.countP_eq_zero.2 fun earlier hmem => ?_
    rw [Trial.isCompleted_of_quiet (hbefore earlier hmem), Bool.not_eq_true,
      Option.isNone_eq_false_iff]
    exact (hearlier earlier hmem).1
  have hwhole : whole = _ :=
    Runner.ofResult_batch_of_status config input htrials hbefore hstatus
  have hfiles : files = _ := ofResult_perform_of_status config input hread htrials hbefore hstatus
  rw [Runner.statisticsOf_concat config before hstatus, hstats, if_pos rfl] at hwhole
  rw [hcount, hstats] at hfiles
  rw [hwhole, hfiles]
  exact ⟨rfl, _, by rw [decide_eq_false (Nat.lt_irrefl 0), Bool.and_false,
    if_neg Bool.false_ne_true, List.append_nil]⟩

/-- Where statistics are lost, the output shows it. -/
theorem shown_ne_of_loss (input : List String)
    (hread : ∀ source ∈ sources, disk.read source.filename = .ok source.text)
    (h : LosesStatistics config (session.trials config.verbosity sources)) :
    Channel.output.shown config
        (Outcome.ofResult (Runner.batch sources { config, session, input })).writes ≠
      Channel.output.shown config
        (Outcome.ofResult (perform disk (fileTasks sources) { config, session, input })).writes := by
  intro hsame
  obtain ⟨-, steps, hwrites⟩ := ofResult_batch_of_loss input hread h
  rw [hwrites, Channel.shown_append] at hsame
  exact Runner.shown_statisticsWrites config steps (String.append_eq_left_iff.1 hsame)

/-- Where none are lost, a batch and the same files as tasks come to the same. -/
theorem ofResult_batch_eq_perform (input : List String) (hsources : sources ≠ [])
    (hread : ∀ source ∈ sources, disk.read source.filename = .ok source.text)
    (h : ¬ LosesStatistics config (session.trials config.verbosity sources)) :
    Outcome.ofResult (Runner.batch sources { config, session, input }) =
      Outcome.ofResult (perform disk (fileTasks sources) { config, session, input }) := by
  obtain hquiet | ⟨before, trial, after, htrials, hbefore, hstops⟩ :=
    quiet_or_stops config.ignore (session.trials config.verbosity sources)
  · have hrow : Runner.carryOutAll sources { config, session, input } = _ :=
      Runner.carryOutAll_of_quiet hquiet
    rw [Runner.batch_of_ok hrow, perform_of_ok hsources hread hrow]
  · cases hstatus : trial.status? with
    | none =>
      have hrow : Runner.carryOutAll sources { config, session, input } = _ :=
        Runner.carryOutAll_of_stop htrials hbefore hstops
      have hreason : trial.reason = .aborted := by rw [Trial.reason, hstatus]
      rw [hreason] at hrow
      rw [Runner.batch_of_aborted hrow, perform_of_aborted hread hrow]
    | some status =>
      rw [Runner.ofResult_batch_of_status config input htrials hbefore hstatus,
        ofResult_perform_of_status config input hread htrials hbefore hstatus,
        Runner.statisticsOf_concat config before hstatus]
      cases hstats : config.stats with
      | false => rfl
      | true =>
        -- an earlier source was completed, or all of them came to problems
        have hpositive : 0 < before.countP (·.isCompleted) := by
          by_contra hzero
          refine h ⟨hstats, before, trial, after, htrials, fun earlier hmem => ?_, by rw [hstatus]; rfl⟩
          have hfailed := List.countP_eq_zero.1 (Nat.eq_zero_of_not_pos hzero) earlier hmem
          have hquiet := hbefore earlier hmem
          rw [Trial.isCompleted_of_quiet hquiet, Bool.not_eq_true, Option.isNone_eq_false_iff]
            at hfailed
          refine ⟨hfailed, ?_⟩
          cases hignore : config.ignore with
          | true => rfl
          | false =>
            rw [hignore, Trial.stops_of_problem? hfailed] at hquiet
            cases hquiet
        rw [decide_eq_true hpositive, Bool.and_true]

end Beside

/-- **A batch and the same files as tasks.** Where files are carried out as tasks, a program that ends
itself is not counted, and if none before it was completed, the statistics are not written. Apart
from that, both end with the same status, and write the same to both channels. -/
theorem batch_beside_files (disk : Disk) (config : Config) (session : Session) (input : List String)
    (sources : List Source) (hsources : sources ≠ [])
    (hread : ∀ source ∈ sources, disk.read source.filename = .ok source.text) :
    let whole := Outcome.ofResult (Runner.batch sources { config, session, input })
    let files := Outcome.ofResult (perform disk (fileTasks sources) { config, session, input })
    let trials := session.trials config.verbosity sources
    whole.ending = files.ending ∧
    ((∀ channel : Channel, channel.shown config whole.writes = channel.shown config files.writes) ↔
      ¬ LosesStatistics config trials) ∧
    (LosesStatistics config trials →
      ∃ steps, whole.writes = files.writes ++ Runner.statisticsWrites steps) := by
  intro whole files trials
  -- the two differ only in that case, and then in what is shown
  by_cases hloses : LosesStatistics config trials
  · obtain ⟨hending, hwrites⟩ := ofResult_batch_of_loss input hread hloses
    refine ⟨hending, iff_of_false (fun hsame => ?_) (not_not_intro hloses), fun _ => hwrites⟩
    exact shown_ne_of_loss input hread hloses (hsame .output)
  · have hsame : whole = files := ofResult_batch_eq_perform input hsources hread hloses
    rw [hsame]
    exact ⟨rfl, iff_of_true (fun _ => rfl) hloses, fun h => absurd h hloses⟩

/-- Behind a source that was completed, the statistics of a program that ends itself are kept. -/
theorem batch_beside_files_behind_completed :
    let sources := [⟨"t = \"a\"\n", "a.lumen"⟩, ⟨"return t != \"a\"\n", "b.lumen"⟩]
    let disk := Disk.ofFiles [("a.lumen", "t = \"a\"\n"), ("b.lumen", "return t != \"a\"\n")]
    let config : Config := { stats := true }
    ∃ first second, Session.trials config.verbosity {} sources = [first, second] ∧
      first.isCompleted = true ∧ second.status? = some 0 ∧
      ∀ channel : Channel,
        channel.shown config (Outcome.ofResult (Runner.batch sources { config })).writes =
          channel.shown config
            (Outcome.ofResult (perform disk (fileTasks sources) { config })).writes := by
  intro sources disk config
  have hlimit : 9 ≤ Program.nestingLimit := by decide
  have hfirst : Program.ofSource 9 (some "a.lumen") 0 "t = \"a\"\n" =
      .ok [.expression (.binary (.name "t" (some ⟨some "a.lumen", 1, 1⟩)) .assign
          (.string ⟨"a", 4⟩ (some ⟨some "a.lumen", 1, 5⟩)) (some ⟨some "a.lumen", 1, 3⟩))
          (some ⟨some "a.lumen", 1, 1⟩)] := by cbv
  have hsecond : Program.ofSource 9 (some "b.lumen") 8 "return t != \"a\"\n" =
      .ok [.ret (.binary (.name "t" (some ⟨some "b.lumen", 1, 8⟩)) .differ
        (.string ⟨"a", 20⟩ (some ⟨some "b.lumen", 1, 13⟩)) (some ⟨some "b.lumen", 1, 10⟩))
        (some ⟨some "b.lumen", 1, 1⟩)] := by cbv
  replace hfirst := Program.ofSource_of_le hlimit hfirst (by rintro _ ⟨⟩)
  replace hsecond := Program.ofSource_of_le hlimit hsecond (by rintro _ ⟨⟩)
  have hbound : Session.run {} {} (some "a.lumen") "t = \"a\"\n" =
      { outcome := .ok (some (.string ⟨"a", 4⟩))
        session := ⟨.ofList [("t", .string ⟨"a", 4⟩)], 8⟩
        journal := [.stored "t"]
        steps := 1 } := by
    refine (Session.run_of_ofSource hfirst).trans ?_
    cbv
  have hended : Session.run ⟨.ofList [("t", .string ⟨"a", 4⟩)], 8⟩ {} (some "b.lumen")
        "return t != \"a\"\n" =
      { outcome := .error (.halted (.ended 0 (.boolean false)))
        session := ⟨.ofList [("t", .string ⟨"a", 4⟩)], 25⟩
        steps := 1 } := by
    refine (Session.run_of_ofSource hsecond).trans ?_
    cbv
  have htrials : Session.trials config.verbosity {} sources =
      ⟨⟨"t = \"a\"\n", "a.lumen"⟩, Session.run {} {} (some "a.lumen") "t = \"a\"\n"⟩ ::
      [⟨⟨"return t != \"a\"\n", "b.lumen"⟩,
        (Session.run {} {} (some "a.lumen") "t = \"a\"\n").session.run {} (some "b.lumen")
          "return t != \"a\"\n"⟩] := rfl
  rw [hbound, hended] at htrials
  refine ⟨_, _, htrials, rfl, rfl, ?_⟩
  refine ((batch_beside_files disk config {} [] sources (List.cons_ne_nil _ _)
    (by decide +kernel)).2.1).2 ?_
  -- the first program ran to its end, so the statistics are not lost
  rintro ⟨-, before, trial, after, hsplit, hbefore, hsome⟩
  rw [htrials] at hsplit
  cases before with
  | nil =>
    obtain ⟨rfl, -⟩ := List.cons.inj hsplit
    cases hsome
  | cons earlier others =>
    cases (hbefore earlier List.mem_cons_self).2

/-- **The statistics of a program that ends itself are lost.** A batch of one such program writes
them, and the same file as a task does not. -/
theorem statistics_lost_behind_return :
    let sources := [⟨"return \"a\" != \"b\"\n", "a.lumen"⟩]
    let disk := Disk.ofFiles [("a.lumen", "return \"a\" != \"b\"\n")]
    let config : Config := { stats := true }
    (∀ source ∈ sources, disk.read source.filename = .ok source.text) ∧
    Channel.output.shown config (Outcome.ofResult (Runner.batch sources { config })).writes ≠
      Channel.output.shown config
        (Outcome.ofResult (perform disk (fileTasks sources) { config })).writes := by
  intro sources disk config
  have hread : ∀ source ∈ sources, disk.read source.filename = .ok source.text := by
    decide +kernel
  have hlimit : 9 ≤ Program.nestingLimit := by decide
  have hsource : Program.ofSource 9 (some "a.lumen") 0 "return \"a\" != \"b\"\n" =
      .ok [.ret (.binary (.string ⟨"a", 7⟩ (some ⟨some "a.lumen", 1, 8⟩)) .differ
        (.string ⟨"b", 14⟩ (some ⟨some "a.lumen", 1, 15⟩)) (some ⟨some "a.lumen", 1, 12⟩))
        (some ⟨some "a.lumen", 1, 1⟩)] := by cbv
  replace hsource := Program.ofSource_of_le hlimit hsource (by rintro _ ⟨⟩)
  have hended : Session.run {} {} (some "a.lumen") "return \"a\" != \"b\"\n" =
      { outcome := .error (.halted (.ended 1 (.boolean true)))
        session := ⟨.ofList [], 19⟩
        steps := 1 } := by
    refine (Session.run_of_ofSource hsource).trans ?_
    cbv
  have htrials : Session.trials config.verbosity {} sources =
      [⟨⟨"return \"a\" != \"b\"\n", "a.lumen"⟩,
        Session.run {} {} (some "a.lumen") "return \"a\" != \"b\"\n"⟩] := rfl
  rw [hended] at htrials
  have hloses : LosesStatistics config (Session.trials config.verbosity {} sources) :=
    ⟨rfl, [], _, [], htrials, fun _ hmem => absurd hmem List.not_mem_nil, rfl⟩
  exact ⟨hread, shown_ne_of_loss [] hread hloses⟩

end CommandLine

end Scriptlet
