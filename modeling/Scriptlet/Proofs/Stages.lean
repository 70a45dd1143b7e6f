import Scriptlet.Proofs.Batches
import Scriptlet.Proofs.Transcript

/-! # Stages of a process

A process carries out its tasks one after the other, each in a stage of its own, until one of them
breaks it off. A file and inline code are one trial; an interactive session is a row of trials, which
ends with a program that ends itself, but does not break the process off.

* `Stage`, `stages`: what is carried out of tasks.
* `carryOutTask_eq`: what one stage does; `carryOutTasks_eq`: what all of them do.
* `perform_ends`: how a process ends.
* `stages_behind_return`: what is still carried out once a program has ended itself. -/

namespace Scriptlet

/-- The last status that programs ended themselves with. -/
def Trial.lastStatus? (trials : List Trial) : Option Int :=
  (trials.filterMap Trial.status?).getLast?

namespace Trial

/-- The last status is that of the later trials, if they have one. -/
theorem lastStatus?_append (trials further : List Trial) :
    lastStatus? (trials ++ further) = (lastStatus? further).or (lastStatus? trials) := by
  rw [lastStatus?, List.filterMap_append, List.getLast?_append, lastStatus?, lastStatus?]

/-- The statements of two rows of trials are added up. -/
theorem totalSteps_append (trials further : List Trial) :
    totalSteps (trials ++ further) = totalSteps trials + totalSteps further := by
  rw [totalSteps, List.map_append, List.sum_append, totalSteps, totalSteps]

/-- The last status of one trial is its own. -/
theorem lastStatus?_singleton (trial : Trial) : lastStatus? [trial] = trial.status? := by
  cases h : trial.status? with
  | none => simp [lastStatus?, h]
  | some status => simp [lastStatus?, h]

end Trial

/-! ## Sessions -/

namespace Prompt

/-- The trial of what is submitted in a turn. -/
def trial? (runner : Runner) (buffer line : String) : Option Trial :=
  (submission? buffer line).map runner.trial

/-- The trial of what is submitted behind a prompt. -/
def Moment.trial? (moment : Moment) : Option Trial :=
  moment.submission?.map moment.runner.trial

/-- The trials of a session. -/
def trials (runner : Runner) (buffer : String) (lines : List String) : List Trial :=
  (moments runner buffer lines).filterMap Moment.trial?

/-- What a part of a session that was carried out makes of a runner: problems are not counted. -/
structure Advances (runner : Runner) (trials : List Trial) (after : Runner) : Prop where
  /-- The runner stays set up as it is. -/
  config : after.config = runner.config
  /-- No problem makes the process a failure. -/
  failure : after.failure = runner.failure
  /-- The statements are counted. -/
  steps : after.steps = runner.steps + Trial.totalSteps trials
  /-- A status replaces the one of before. -/
  status : after.status = (Trial.lastStatus? trials).or runner.status

/-- Two parts of a session in turn make a runner advance by the trials of both. -/
theorem Advances.trans {runner middle after : Runner} {trials further : List Trial}
    (h : Advances runner trials middle) (hfurther : Advances middle further after) :
    Advances runner (trials ++ further) after where
  config := hfurther.config.trans h.config
  failure := hfurther.failure.trans h.failure
  steps := by rw [hfurther.steps, h.steps, Trial.totalSteps_append, Nat.add_assoc]
  status := by rw [hfurther.status, h.status, Trial.lastStatus?_append, Option.or_assoc]

section Turn

variable {runner after : Runner} {buffer line : String} {verdict : Verdict}

/-- A blank line between programs submits nothing. -/
theorem submission?_of_blank (hbuffer : buffer = "") (hline : Text.isBlankText line = true) :
    submission? buffer line = none := by
  subst hbuffer
  simp [submission?, hline]

/-- A turn that submits nothing makes a runner advance by no trial. -/
theorem advances_of_no_submission (h : submission? buffer line = none) (writes : List Write) :
    Advances runner (trial? runner buffer line).toList (runner.wrote writes) := by
  rw [trial?, h]
  exact ⟨rfl, rfl, rfl, rfl⟩

/-- A turn that submits a text makes a runner advance by its trial. -/
theorem advances_of_submission {source : Source} (hsubmission : submission? buffer line = some source)
    (hconfig : after.config = runner.config) (hfailure : after.failure = runner.failure)
    (hsteps : after.steps = runner.steps + (runner.replyTo source).steps)
    (hstatus : after.status = (runner.trial source).status?.or runner.status) :
    Advances runner (trial? runner buffer line).toList after := by
  rw [trial?, hsubmission, Option.map_some, Option.toList_some]
  refine ⟨hconfig, hfailure, ?_, ?_⟩
  · rw [hsteps]
    rfl
  · rw [hstatus, Trial.lastStatus?_singleton]

/-- **What one turn makes of a runner.** -/
theorem Turn.advances (h : Turn runner buffer line verdict after) :
    Advances runner (trial? runner buffer line).toList after := by
  cases h with
  | skipped hbuffer hline => exact advances_of_no_submission (submission?_of_blank hbuffer hline) _
  | farewell hsubmission => exact advances_of_no_submission hsubmission _
  | @awaited source rejection wanted hsubmission hread hfault =>
    -- the text is refused, so no statement of it is started
    have hreply : runner.replyTo source = _ := Session.run_of_ofSource_error hread
    have hstatus :=
      ((runner.trial source).status?_of_problem (congrArg Reply.outcome hreply) rfl).1
    exact advances_of_submission hsubmission rfl rfl (by rw [hreply]; rfl) (by rw [hstatus]; rfl)
  | @finished source result hsubmission houtcome =>
    have hstatus := ((runner.trial source).status?_of_ok houtcome).1
    exact advances_of_submission hsubmission rfl rfl rfl (by rw [hstatus]; rfl)
  | @ended source status value hsubmission houtcome =>
    have hstatus := ((runner.trial source).status?_of_ended houtcome).1
    exact advances_of_submission hsubmission rfl rfl rfl (by rw [hstatus]; rfl)
  | @reported source failure problem hsubmission houtcome hproblem hcomplete =>
    have hstatus := ((runner.trial source).status?_of_problem houtcome hproblem).1
    exact advances_of_submission hsubmission rfl rfl rfl (by rw [hstatus]; rfl)

/-- A session goes on only behind what does not end itself. -/
theorem Turn.status?_of_goOn {buffer' : String} (h : Turn runner buffer line (.goOn buffer') after) :
    ∀ trial ∈ (trial? runner buffer line).toList, trial.status? = none := by
  intro trial htrial
  rw [trial?, Option.mem_toList, Option.map_eq_some_iff] at htrial
  obtain ⟨source, hsubmission, rfl⟩ := htrial
  -- a program that ends itself has the session left, so it is none of these turns
  cases h with
  | skipped hbuffer hline =>
    rw [submission?_of_blank hbuffer hline] at hsubmission
    cases hsubmission
  | awaited hsubmission' hread hfault =>
    cases hsubmission.symm.trans hsubmission'
    have hreply : runner.replyTo source = _ := Session.run_of_ofSource_error hread
    exact ((runner.trial source).status?_of_problem (congrArg Reply.outcome hreply) rfl).1
  | finished hsubmission' houtcome =>
    cases hsubmission.symm.trans hsubmission'
    exact ((runner.trial source).status?_of_ok houtcome).1
  | reported hsubmission' houtcome hproblem =>
    cases hsubmission.symm.trans hsubmission'
    exact ((runner.trial source).status?_of_problem houtcome hproblem).1

/-- A program that ends itself ends the session. -/
theorem turn_of_ended (runner : Runner) {source : Source} {status : Int} {value : Value}
    (hsubmission : submission? buffer line = some source)
    (houtcome : (runner.replyTo source).outcome = .error (.halted (.ended status value))) :
    turn buffer line runner = .ok .leave
      { (runner.wrote [promptWrite buffer]).carried (runner.replyTo source) with
        status := some status } := by
  obtain ⟨hturn, hname⟩ := turn_of_submission runner hsubmission
  obtain ⟨text, filename⟩ := source
  subst hname
  rw [hturn]
  exact submit_of_ended houtcome

end Turn

section Trials

variable {runner after : Runner} {buffer buffer' line : String} {rest : List String}

/-- The trials of a session that goes on are that of the turn and those of the rest. -/
theorem trials_of_goOn (h : turn buffer line runner = .ok (.goOn buffer') after) :
    trials runner buffer (line :: rest) =
      (trial? runner buffer line).toList ++ trials after buffer' rest := by
  have hfirst : Moment.trial? ⟨runner, buffer, line :: rest⟩ = trial? runner buffer line := rfl
  rw [trials, moments_of_goOn h, List.filterMap_cons, hfirst, trials]
  cases trial? runner buffer line <;> rfl

/-- The trials of a session that is left are that of the turn. -/
theorem trials_of_leave (h : turn buffer line runner = .ok .leave after) :
    trials runner buffer (line :: rest) = (trial? runner buffer line).toList := by
  have hfirst : Moment.trial? ⟨runner, buffer, line :: rest⟩ = trial? runner buffer line := rfl
  rw [trials, moments_of_leave h, List.filterMap_cons, hfirst]
  cases trial? runner buffer line <;> rfl

/-- A session that is left returns the lines that were not read. -/
theorem loop_of_leave (h : turn buffer line runner = .ok .leave after) :
    loop buffer (line :: rest) runner = .ok rest after := by
  have hstep : step buffer line (runner.wrote [promptWrite buffer]) = .ok .leave after := h
  show EStateM.bind (step buffer line) _ (runner.wrote [promptWrite buffer]) = _
  rw [EStateM.bind, hstep]
  rfl

end Trials

/-- **What a session makes of a runner**; it never breaks off. -/
theorem loop_advances (runner : Runner) (buffer : String) (lines : List String) :
    ∃ rest after, loop buffer lines runner = .ok rest after ∧
      Advances runner (trials runner buffer lines) after := by
  induction runner, buffer, lines using moments_induction with
  | nil runner buffer => exact ⟨_, _, rfl, rfl, rfl, rfl, rfl⟩
  | goOn runner buffer line rest buffer' after heq hturn ih =>
    obtain ⟨left, final, hloop, hadvances⟩ := ih
    rw [loop_of_goOn heq, trials_of_goOn heq]
    exact ⟨left, final, hloop, hturn.advances.trans hadvances⟩
  | leave runner buffer line rest after heq hturn =>
    rw [loop_of_leave heq, trials_of_leave heq]
    exact ⟨rest, after, rfl, hturn.advances⟩

/-- **A program that ends itself is the last of its session.** -/
theorem last_of_status? {runner : Runner} {buffer : String} {lines : List String} {trial : Trial}
    (hmem : trial ∈ trials runner buffer lines) (hstatus : trial.status?.isSome = true) :
    ∃ earlier, trials runner buffer lines = earlier ++ [trial] := by
  induction runner, buffer, lines using moments_induction with
  | nil runner buffer => exact absurd hmem List.not_mem_nil
  | goOn runner buffer line rest buffer' after heq hturn ih =>
    rw [trials_of_goOn heq] at hmem ⊢
    -- the session went on, so what ended itself came later
    rcases List.mem_append.1 hmem with hfirst | hlater
    · rw [hturn.status?_of_goOn trial hfirst] at hstatus
      cases hstatus
    · obtain ⟨earlier, htrials⟩ := ih hlater
      rw [htrials, ← List.append_assoc]
      exact ⟨_, rfl⟩
  | leave runner buffer line rest after heq _ =>
    rw [trials_of_leave heq] at hmem ⊢
    rw [Option.mem_toList] at hmem
    rw [hmem]
    exact ⟨[], rfl⟩

end Prompt

namespace CommandLine

/-! ## One stage -/

/-- What is carried out of a task. -/
structure Stage where
  /-- The task. -/
  task : Task
  /-- The sources that are carried out, with the replies to them. -/
  trials : List Trial
  /-- Why the process is broken off, if it is. -/
  break? : Option Break

/-- The stage of a task that is one source. -/
def Stage.ofSource (task : Task) (runner : Runner) (source : Source) : Stage :=
  let trial := runner.trial source
  ⟨task, [trial], if trial.stops runner.config.ignore then some trial.reason else none⟩

/-- Whether a problem makes the process a failure, which it does outside of a session. -/
def Stage.hasFailed (stage : Stage) : Bool :=
  stage.task != .prompt && stage.trials.any (·.problem?.isSome)

/-- The trials of stages. -/
def Stage.allTrials (stages : List Stage) : List Trial :=
  stages.flatMap Stage.trials

/-- The stage of a task. -/
def stage (disk : Disk) (index : Nat) (runner : Runner) : Task → Stage
  | .file path =>
    match disk.read path with
    | .ok text => .ofSource (.file path) runner ⟨text, path⟩
    | .error fault => ⟨.file path, [], some (.unreadable fault)⟩
  | .code text => .ofSource (.code text) runner (inlineSource index text)
  | .prompt =>
    ⟨.prompt, Prompt.trials (runner.wrote [⟨.output, Prompt.greeting ++ "\n"⟩]) "" runner.input, none⟩

/-- Carries out a task; inline code is given a number. -/
def carryOutTask (disk : Disk) (index : Nat) : Task → Action Unit
  | .file path =>
    match disk.read path with
    | .ok text => Runner.carryOut false ⟨text, path⟩
    | .error fault => throw (.unreadable fault)
  | .code text => Runner.carryOut true (inlineSource index text)
  | .prompt => Prompt.converse

/-- The number of the next inline code behind a task. -/
def Task.nextIndex (index : Nat) : Task → Nat
  | .code _ => index + 1
  | _ => index

/-- The stages of tasks: a task is begun if none before it breaks the process off. -/
def stages (disk : Disk) (index : Nat) : List Task → Runner → List Stage
  | [], _ => []
  | task :: rest, runner =>
    stage disk index runner task ::
      match carryOutTask disk index task runner with
      | .ok _ after => stages disk (task.nextIndex index) rest after
      | .error _ _ => []

/-- What comes of tasks: they are carried out to their end, or broken off. -/
def settled (runner : Runner) : Option Break → EStateM.Result Break Runner Unit
  | none => .ok () runner
  | some reason => .error reason runner

/-- What stages make of a runner. -/
structure Leads (runner : Runner) (stages : List Stage) (after : Runner) : Prop where
  /-- The runner stays set up as it is. -/
  config : after.config = runner.config
  /-- The statements of all stages are counted. -/
  steps : after.steps = runner.steps + Trial.totalSteps (Stage.allTrials stages)
  /-- A problem makes the process a failure, unless it is in a session. -/
  failure : after.failure = (runner.failure || stages.any Stage.hasFailed)
  /-- Without a break, the last program that ended itself left its status. -/
  status : (∀ stage ∈ stages, stage.break? = none) →
    after.status = (Trial.lastStatus? (Stage.allTrials stages)).or runner.status

section Stage

variable {disk : Disk} {index : Nat} {runner : Runner} {task : Task}

/-- The stage of a task is about that task. -/
theorem task_stage (disk : Disk) (index : Nat) (runner : Runner) (task : Task) :
    (stage disk index runner task).task = task := by
  cases task with
  | file path =>
    rw [stage]
    split <;> rfl
  | code text => rfl
  | prompt => rfl

/-- A program that ends itself breaks its stage off with its status. -/
theorem Stage.ofSource_of_ended (task : Task) {source : Source} {status : Int}
    (h : (runner.trial source).status? = some status) :
    ofSource task runner source = ⟨task, [runner.trial source], some (.ended status)⟩ := by
  rw [ofSource, Trial.reason, h, if_pos (Trial.stops_of_status? h _)]

/-- A source that does not stop the runner does not break its stage off. -/
theorem Stage.ofSource_of_quiet (task : Task) {source : Source}
    (h : (runner.trial source).stops runner.config.ignore = false) :
    ofSource task runner source = ⟨task, [runner.trial source], none⟩ := by
  rw [ofSource, h, if_neg Bool.false_ne_true]

/-- What a source makes of a runner. -/
theorem carryOut_leads (showResult : Bool) (htask : task ≠ .prompt) (source : Source)
    (runner : Runner) :
    ∃ after, Runner.carryOut showResult source runner =
        settled after (Stage.ofSource task runner source).break? ∧
      Leads runner [Stage.ofSource task runner source] after := by
  have htrials : Stage.allTrials [Stage.ofSource task runner source] = [runner.trial source] := rfl
  refine ⟨runner.behind showResult (runner.trial source), ?_, rfl, ?_, ?_, fun hbreak => ?_⟩
  · rw [Runner.carryOut_eq, Stage.ofSource]
    split <;> rfl
  · rw [htrials]
    simp [Trial.totalSteps, Runner.behind]
  · have hprompt : (task != .prompt) = true := bne_iff_ne.2 htask
    simp [Stage.hasFailed, Stage.ofSource, Runner.behind, hprompt]
  · -- a program that ends itself would break the process off
    have hquiet : (runner.trial source).stops runner.config.ignore = false := by
      have hnone := hbreak _ List.mem_cons_self
      simpa [Stage.ofSource] using hnone
    have hstatus : (runner.trial source).status? = none := by
      cases hstatus : (runner.trial source).status? with
      | none => rfl
      | some status =>
        rw [Trial.stops_of_status? hstatus] at hquiet
        cases hquiet
    rw [htrials, Trial.lastStatus?_singleton, hstatus]
    rfl

/-- What a session makes of a runner. -/
theorem converse_leads (disk : Disk) (index : Nat) (runner : Runner) :
    ∃ after, Prompt.converse runner = .ok () after ∧
      Leads runner [stage disk index runner .prompt] after := by
  obtain ⟨rest, final, hloop, hadvances⟩ := Prompt.loop_advances
    (runner.wrote [⟨.output, Prompt.greeting ++ "\n"⟩]) "" runner.input
  have hconverse : Prompt.converse runner =
      EStateM.bind (Prompt.loop "" runner.input)
        (fun rest => modify fun runner => { runner with input := rest })
        (runner.wrote [⟨.output, Prompt.greeting ++ "\n"⟩]) := rfl
  -- a session is its loop, between a greeting and putting back the lines not read
  rw [EStateM.bind, hloop] at hconverse
  have htrials : Stage.allTrials [stage disk index runner .prompt] = Prompt.trials
      (runner.wrote [⟨.output, Prompt.greeting ++ "\n"⟩]) "" runner.input := List.append_nil _
  refine ⟨_, hconverse, hadvances.config, ?_, ?_, fun _ => ?_⟩
  · rw [htrials]
    exact hadvances.steps
  · exact hadvances.failure.trans (Bool.or_false _).symm
  · rw [htrials]
    exact hadvances.status

/-- **What one stage does.** -/
theorem carryOutTask_eq (disk : Disk) (index : Nat) (runner : Runner) (task : Task) :
    ∃ after, carryOutTask disk index task runner =
        settled after (stage disk index runner task).break? ∧
      Leads runner [stage disk index runner task] after := by
  cases task with
  | file path =>
    rw [carryOutTask, stage]
    cases disk.read path with
    | ok text => exact carryOut_leads false (by rintro ⟨⟩) ⟨text, path⟩ runner
    | error fault => exact ⟨runner, rfl, rfl, rfl, (Bool.or_false _).symm, fun _ => rfl⟩
  | code text => exact carryOut_leads true (by rintro ⟨⟩) (inlineSource index text) runner
  | prompt => exact converse_leads disk index runner

/-- **A program that ends itself is the last of its stage**, and outside of a session it breaks the
process off. -/
theorem stage_of_status {trial : Trial} {status : Int}
    (hmem : trial ∈ (stage disk index runner task).trials) (hstatus : trial.status? = some status) :
    (∃ earlier, (stage disk index runner task).trials = earlier ++ [trial]) ∧
      (task ≠ .prompt → (stage disk index runner task).break? = some (.ended status)) := by
  have hsource {source : Source} (hmem : trial ∈ (Stage.ofSource task runner source).trials) :
      (∃ earlier, (Stage.ofSource task runner source).trials = earlier ++ [trial]) ∧
        (task ≠ .prompt →
          (Stage.ofSource task runner source).break? = some (.ended status)) := by
    cases List.mem_singleton.1 hmem
    rw [Stage.ofSource_of_ended task hstatus]
    exact ⟨⟨[], rfl⟩, fun _ => rfl⟩
  cases task with
  | file path =>
    rw [stage] at hmem ⊢
    cases hread : disk.read path with
    | ok text =>
      rw [hread] at hmem
      exact hsource hmem
    | error fault =>
      rw [hread] at hmem
      exact absurd hmem List.not_mem_nil
  | code text => exact hsource hmem
  -- a session is left with the program that ends itself, which is its last
  | prompt =>
    have hsome : trial.status?.isSome = true := by rw [hstatus]; rfl
    exact ⟨Prompt.last_of_status? hmem hsome, fun hprompt => absurd rfl hprompt⟩

end Stage

/-! ## All stages -/

section Stages

variable {disk : Disk} {index : Nat} {runner middle after : Runner} {task : Task}

/-- The first task is carried out, and then the others. -/
theorem carryOutTasks_cons (disk : Disk) (index : Nat) (task : Task) (rest : List Task) :
    carryOutTasks disk index (task :: rest) =
      (do carryOutTask disk index task; carryOutTasks disk (task.nextIndex index) rest) := by
  cases task with
  | file path =>
    rw [carryOutTasks, carryOutTask]
    cases disk.read path <;> rfl
  | code text => rfl
  | prompt => rfl

/-- Behind a task that is carried out stand the stages of the others. -/
theorem stages_of_ok (rest : List Task)
    (h : carryOutTask disk index task runner = .ok () middle) :
    stages disk index (task :: rest) runner =
        stage disk index runner task :: stages disk (task.nextIndex index) rest middle ∧
      carryOutTasks disk index (task :: rest) runner =
        carryOutTasks disk (task.nextIndex index) rest middle := by
  refine ⟨by rw [stages, h], ?_⟩
  rw [carryOutTasks_cons]
  show EStateM.bind (carryOutTask disk index task) _ runner = _
  rw [EStateM.bind, h]

/-- Behind a task that breaks off stand no more stages. -/
theorem stages_of_error {reason : Break} (rest : List Task)
    (h : carryOutTask disk index task runner = .error reason after) :
    stages disk index (task :: rest) runner = [stage disk index runner task] ∧
      carryOutTasks disk index (task :: rest) runner = .error reason after := by
  refine ⟨by rw [stages, h], ?_⟩
  rw [carryOutTasks_cons]
  show EStateM.bind (carryOutTask disk index task) _ runner = _
  rw [EStateM.bind, h]

/-- One task has one stage. -/
theorem stages_singleton (disk : Disk) (index : Nat) (task : Task) (runner : Runner) :
    stages disk index [task] runner = [stage disk index runner task] := by
  rw [stages]
  split <;> rfl

/-- Induction along the stages of tasks: the next one is begun behind a stage, or the stage breaks
the process off. -/
theorem stages_induction (disk : Disk) {motive : Nat → List Task → Runner → Prop}
    (nil : ∀ index runner, motive index [] runner)
    (next : ∀ index task rest runner middle,
      carryOutTask disk index task runner = .ok () middle →
      (stage disk index runner task).break? = none →
      Leads runner [stage disk index runner task] middle →
      motive (task.nextIndex index) rest middle → motive index (task :: rest) runner)
    (broken : ∀ index task rest runner reason after,
      carryOutTask disk index task runner = .error reason after →
      (stage disk index runner task).break? = some reason →
      Leads runner [stage disk index runner task] after → motive index (task :: rest) runner)
    (index : Nat) (tasks : List Task) (runner : Runner) : motive index tasks runner := by
  induction tasks generalizing index runner with
  | nil => exact nil index runner
  | cons task rest ih =>
    obtain ⟨after, heq, hleads⟩ := carryOutTask_eq disk index runner task
    -- the stage of the first task decides whether there are others
    cases hbreak : (stage disk index runner task).break? with
    | none =>
      rw [hbreak] at heq
      exact next index task rest runner after heq hbreak hleads (ih _ after)
    | some reason =>
      rw [hbreak] at heq
      exact broken index task rest runner reason after heq hbreak hleads

/-- Why the last of some stages broke the process off, if it did. -/
def lastBreak? (stages : List Stage) : Option Break :=
  stages.getLast?.bind Stage.break?

/-- A stage that is not broken off does not change how the last one ended. -/
theorem lastBreak?_cons {stage : Stage} (h : stage.break? = none) (stages : List Stage) :
    lastBreak? (stage :: stages) = lastBreak? stages := by
  cases stages with
  | nil => exact h
  | cons next later => rw [lastBreak?, List.getLast?_cons_cons, lastBreak?]

/-- The trials of stages are those of the first and those of the others. -/
theorem Stage.allTrials_cons (stage : Stage) (stages : List Stage) :
    allTrials (stage :: stages) = allTrials [stage] ++ allTrials stages := by
  simp [allTrials]

/-- No stages leave a runner as it is. -/
theorem leads_nil (runner : Runner) : Leads runner [] runner :=
  ⟨rfl, rfl, (Bool.or_false _).symm, fun _ => rfl⟩

/-- What the first stage and the others make of a runner, all of them make in turn. -/
theorem Leads.cons {stage : Stage} {stages : List Stage} (h : Leads runner [stage] middle)
    (hlater : Leads middle stages after) : Leads runner (stage :: stages) after where
  config := hlater.config.trans h.config
  steps := by
    rw [hlater.steps, h.steps, Stage.allTrials_cons stage stages, Trial.totalSteps_append,
      Nat.add_assoc]
  failure := by
    rw [hlater.failure, h.failure, Bool.or_assoc, List.any_cons, List.any_cons, List.any_nil,
      Bool.or_false]
  status := by
    intro hbreaks
    -- a status that is set later replaces an earlier one
    rw [hlater.status fun later hmem => hbreaks later (List.mem_cons_of_mem _ hmem),
      h.status fun first hmem => hbreaks first (List.mem_singleton.1 hmem ▸ List.mem_cons_self),
      Stage.allTrials_cons stage stages, Trial.lastStatus?_append, Option.or_assoc]

/-- **What the stages of tasks do.** -/
theorem carryOutTasks_eq (disk : Disk) (index : Nat) (tasks : List Task) (runner : Runner) :
    ∃ after, carryOutTasks disk index tasks runner =
        settled after (lastBreak? (stages disk index tasks runner)) ∧
      Leads runner (stages disk index tasks runner) after := by
  induction index, tasks, runner using stages_induction disk with
  | nil index runner => exact ⟨runner, rfl, leads_nil runner⟩
  | next index task rest runner middle heq hbreak hleads ih =>
    obtain ⟨after, hrest, hlater⟩ := ih
    obtain ⟨hstages, htasks⟩ := stages_of_ok rest heq
    rw [hstages, htasks, lastBreak?_cons hbreak]
    exact ⟨after, hrest, hleads.cons hlater⟩
  | broken index task rest runner reason after heq hbreak hleads =>
    obtain ⟨hstages, htasks⟩ := stages_of_error rest heq
    rw [hstages, htasks]
    -- nothing follows what breaks off, so it is the last stage
    have hlast : lastBreak? [stage disk index runner task] = some reason := hbreak
    exact ⟨after, by rw [hlast]; rfl, hleads⟩

end Stages

section History

variable {disk : Disk} {index : Nat} {tasks : List Task} {runner : Runner}

/-- The tasks that have a stage are the first ones. -/
theorem map_task_stages (disk : Disk) (index : Nat) (tasks : List Task) (runner : Runner) :
    (stages disk index tasks runner).map Stage.task <+: tasks := by
  induction index, tasks, runner using stages_induction disk with
  | nil index runner => exact List.prefix_refl _
  | next index task rest runner middle heq hbreak hleads ih =>
    rw [(stages_of_ok rest heq).1, List.map_cons, task_stage]
    exact (List.prefix_cons_inj task).2 ih
  | broken index task rest runner reason after heq hbreak hleads =>
    rw [(stages_of_error rest heq).1, List.map_singleton, task_stage]
    exact List.prefix_append [task] rest

/-- Without a break, all tasks are begun. -/
theorem length_stages (h : ∀ stage ∈ stages disk index tasks runner, stage.break? = none) :
    (stages disk index tasks runner).length = tasks.length := by
  induction index, tasks, runner using stages_induction disk with
  | nil index runner => rfl
  | next index task rest runner middle heq hbreak hleads ih =>
    rw [(stages_of_ok rest heq).1] at h ⊢
    rw [List.length_cons, List.length_cons,
      ih fun stage hmem => h stage (List.mem_cons_of_mem _ hmem)]
  | broken index task rest runner reason after heq hbreak hleads =>
    rw [(stages_of_error rest heq).1] at h
    rw [h _ List.mem_cons_self] at hbreak
    cases hbreak

/-- Behind a break nothing is begun. -/
theorem eq_nil_of_break {before later : List Stage} {stage : Stage}
    (h : stages disk index tasks runner = before ++ stage :: later)
    (hbreak : stage.break?.isSome = true) : later = [] := by
  induction index, tasks, runner using stages_induction disk generalizing before with
  | nil index runner => exact absurd h (by simp [stages])
  | next index task rest runner middle heq hnone hleads ih =>
    rw [(stages_of_ok rest heq).1] at h
    cases before with
    | nil =>
      obtain ⟨rfl, -⟩ := List.cons.inj h
      rw [hnone] at hbreak
      cases hbreak
    | cons first others => exact ih (List.cons.inj h).2
  | broken index task rest runner reason after heq hsome hleads =>
    rw [(stages_of_error rest heq).1] at h
    cases before with
    -- the stage that is broken off is the only one from here on
    | nil => exact (List.cons.inj h).2.symm
    | cons first others => exact absurd (List.cons.inj h).2 (by simp)

/-- If the last stage is not broken off, none is. -/
theorem break?_of_lastBreak? (h : lastBreak? (stages disk index tasks runner) = none) :
    ∀ stage ∈ stages disk index tasks runner, stage.break? = none := by
  intro stage hmem
  obtain ⟨before, later, hsplit⟩ := List.append_of_mem hmem
  cases hbreak : stage.break? with
  | none => rfl
  | some reason =>
    -- nothing would follow it, so it would be the last
    rw [eq_nil_of_break hsplit (by rw [hbreak]; rfl)] at hsplit
    rw [hsplit, lastBreak?, List.getLast?_concat, Option.bind_some, hbreak] at h
    cases h

/-- Every stage is that of a task, at some point of the process. -/
theorem exists_stage_of_mem {found : Stage} (h : found ∈ stages disk index tasks runner) :
    ∃ number reached task, found = stage disk number reached task := by
  induction index, tasks, runner using stages_induction disk with
  | nil index runner => exact absurd h List.not_mem_nil
  | next index task rest runner middle heq hnone hleads ih =>
    rw [(stages_of_ok rest heq).1] at h
    rcases List.mem_cons.1 h with rfl | hmem
    · exact ⟨index, runner, task, rfl⟩
    · exact ih hmem
  | broken index task rest runner reason after heq hsome hleads =>
    rw [(stages_of_error rest heq).1] at h
    exact ⟨index, runner, task, List.mem_singleton.1 h⟩

end History

/-! ## Whole processes -/

/-- The tasks of a process: without any, it holds an interactive session. -/
def Task.orPrompt : List Task → List Task
  | [] => [.prompt]
  | tasks => tasks

/-- The stages of a process. -/
def history (disk : Disk) (tasks : List Task) (runner : Runner) : List Stage :=
  stages disk 1 (Task.orPrompt tasks) runner

/-- How a process ends. -/
def ending (stages : List Stage) : Ending :=
  match lastBreak? stages with
  | some (.ended status) => .exited status
  | some .aborted => .exited 1
  | some (.unreadable fault) => .broken fault
  | none =>
    .exited ((Trial.lastStatus? (Stage.allTrials stages)).getD
      (if stages.any Stage.hasFailed then 1 else 0))

/-- The runner that a process leaves behind. -/
def left : EStateM.Result Break Runner Int → Runner
  | .ok _ runner => runner
  | .error _ runner => runner

/-- What is made of the tasks once they were carried out. -/
def concluded : EStateM.Result Break Runner Unit → EStateM.Result Break Runner Int
  | .ok _ after => Runner.finish after
  | .error (.ended status) after => Runner.finish { after with status := some status }
  | .error reason after => .error reason after

/-- A process without tasks is one that holds a session. -/
theorem perform_eq (disk : Disk) (tasks : List Task) (runner : Runner) :
    perform disk tasks runner = concluded (carryOutTasks disk 1 (Task.orPrompt tasks) runner) := by
  -- without tasks there is a session, and its end is that of the process
  cases tasks with
  | nil =>
    obtain ⟨after, hconverse, -⟩ := converse_leads disk 1 runner
    have hperform : perform disk [] runner =
        EStateM.bind Prompt.converse (fun _ => Runner.finish) runner := rfl
    have htasks : carryOutTasks disk 1 [.prompt] runner =
        EStateM.bind Prompt.converse (fun _ => pure ()) runner := rfl
    rw [hperform, Task.orPrompt, htasks, EStateM.bind, EStateM.bind, hconverse]
    rfl
  | cons task rest =>
    have horPrompt : Task.orPrompt (task :: rest) = task :: rest := rfl
    rw [perform, horPrompt]
    cases carryOutTasks disk 1 (task :: rest) runner with
    | ok _ after => rfl
    | error reason after => cases reason <;> rfl

/-- To show the statistics leaves the count of statements. -/
theorem steps_left_finish (runner : Runner) : (left (Runner.finish runner)).steps = runner.steps := by
  rw [Runner.finish_eq]
  rfl

/-- **How a process ends.** -/
theorem perform_ends (disk : Disk) (config : Config) (session : Session) (input : List String)
    (tasks : List Task) :
    let result := perform disk tasks { config, session, input }
    let stages := history disk tasks { config, session, input }
    (Outcome.ofResult result).ending = ending stages ∧
      (left result).steps = Trial.totalSteps (Stage.allTrials stages) := by
  intro result stages
  obtain ⟨after, htasks, hleads⟩ :=
    carryOutTasks_eq disk 1 (Task.orPrompt tasks) { config, session, input }
  have hresult : result = concluded (settled after (lastBreak? stages)) :=
    (perform_eq disk tasks _).trans (congrArg concluded htasks)
  have hsteps : after.steps = Trial.totalSteps (Stage.allTrials stages) := by
    rw [hleads.steps]
    exact Nat.zero_add _
  rw [hresult, ending]
  -- a process that is not broken off ends with the last status, if there is one
  cases hbreak : lastBreak? stages with
  | none =>
    refine ⟨?_, (steps_left_finish _).trans hsteps⟩
    have hstatus := hleads.status (break?_of_lastBreak? hbreak)
    rw [settled, concluded, Runner.ofResult_finish, Runner.exitStatus, hstatus, hleads.failure,
      Option.or_none, Bool.false_or]
    rfl
  | some reason =>
    cases reason with
    | ended status =>
      refine ⟨?_, (steps_left_finish _).trans hsteps⟩
      rw [settled, concluded, Runner.ofResult_finish]
      rfl
    | aborted => exact ⟨rfl, hsteps⟩
    | unreadable fault => exact ⟨rfl, hsteps⟩

/-- How the last stage ended is decided behind any front of the stages. -/
theorem lastBreak?_append (before : List Stage) (stage : Stage) (after : List Stage) :
    lastBreak? (before ++ stage :: after) = lastBreak? (stage :: after) := by
  rw [lastBreak?, List.getLast?_append, List.getLast?_cons, Option.some_or, lastBreak?,
    List.getLast?_cons]

/-- The trials of two rows of stages come one row after the other. -/
theorem Stage.allTrials_append (before after : List Stage) :
    allTrials (before ++ after) = allTrials before ++ allTrials after :=
  List.flatMap_append

/-- Behind a session whose first line is a program that ends itself, the next task is begun in the
session that it left. -/
theorem stages_of_session_return (disk : Disk) (index : Nat) (rest : List Task) (runner : Runner)
    {line : String} {lines : List String} {source : Source} {status : Int} {value : Value}
    (hinput : runner.input = line :: lines)
    (hsubmission : Prompt.submission? "" line = some source)
    (houtcome : (runner.replyTo source).outcome = .error (.halted (.ended status value))) :
    ∃ middle, stages disk index (.prompt :: rest) runner =
        ⟨.prompt, [runner.trial source], none⟩ :: stages disk index rest middle ∧
      middle.session = (runner.replyTo source).session ∧ middle.config = runner.config := by
  let greeted := runner.wrote [⟨.output, Prompt.greeting ++ "\n"⟩]
  have hturn := Prompt.turn_of_ended greeted hsubmission houtcome
  have hconverse : Prompt.converse runner =
      EStateM.bind (Prompt.loop "" runner.input)
        (fun rest => modify fun runner => { runner with input := rest }) greeted := rfl
  rw [EStateM.bind, hinput, Prompt.loop_of_leave hturn] at hconverse
  have htrials : Prompt.trials greeted "" runner.input = [runner.trial source] := by
    rw [hinput, Prompt.trials_of_leave hturn, Prompt.trial?, hsubmission]
    rfl
  -- the session is left at the first line, so it has this one trial
  have hstage : stage disk index runner .prompt = ⟨.prompt, [runner.trial source], none⟩ := by
    rw [← htrials]
    rfl
  let ended : Runner :=
    { (greeted.wrote [Prompt.promptWrite ""]).carried (greeted.replyTo source) with
      status := some status }
  have hok : carryOutTask disk index .prompt runner = .ok () { ended with input := lines } :=
    hconverse
  refine ⟨{ ended with input := lines }, ?_, rfl, rfl⟩
  rw [(stages_of_ok rest hok).1, hstage]
  rfl

section Return

variable {disk : Disk} {index : Nat} {tasks : List Task} {runner : Runner} {before after : List Stage}
  {stage : Stage} {trial : Trial} {status : Int}
  (hstages : stages disk index tasks runner = before ++ stage :: after)
  (htrial : trial ∈ stage.trials) (hstatus : trial.status? = some status)

include hstages htrial hstatus

/-- A program that ends itself is the last of its stage. -/
theorem last_of_return : ∃ earlier, stage.trials = earlier ++ [trial] := by
  have hmem : stage ∈ stages disk index tasks runner := by simp [hstages]
  obtain ⟨number, reached, task, rfl⟩ := exists_stage_of_mem hmem
  exact (stage_of_status htrial hstatus).1

/-- Outside of a session, a program that ends itself ends the process. -/
theorem ending_of_return (htask : stage.task ≠ .prompt) :
    after = [] ∧ ending (stages disk index tasks runner) = .exited status := by
  have hmem : stage ∈ stages disk index tasks runner := by simp [hstages]
  have hbreak : stage.break? = some (.ended status) := by
    obtain ⟨number, reached, task, rfl⟩ := exists_stage_of_mem hmem
    rw [task_stage] at htask
    exact (stage_of_status htrial hstatus).2 htask
  have hafter : after = [] := eq_nil_of_break hstages (by rw [hbreak]; rfl)
  have hlast : lastBreak? (stages disk index tasks runner) = some (.ended status) := by
    rw [hstages, lastBreak?_append, hafter]
    exact hbreak
  exact ⟨hafter, by rw [ending, hlast]⟩

omit htrial hstatus in
/-- A session does not break the process off: the tasks behind it are begun. -/
theorem after_session_eq_nil_iff (htask : stage.task = .prompt) :
    stage.break? = none ∧ (after = [] ↔ before.length + 1 = tasks.length) := by
  have hmem : stage ∈ stages disk index tasks runner := by simp [hstages]
  have hbreak : stage.break? = none := by
    obtain ⟨number, reached, task, rfl⟩ := exists_stage_of_mem hmem
    rw [task_stage] at htask
    rw [htask]
    rfl
  have hlength := (map_task_stages disk index tasks runner).length_le
  rw [List.length_map, hstages, List.length_append, List.length_cons] at hlength
  -- a session does not break the process off: tasks and stages run out together
  refine ⟨hbreak, fun hafter => ?_, fun hall => ?_⟩
  · have hnone : lastBreak? (stages disk index tasks runner) = none := by
      rw [hstages, lastBreak?_append, hafter]
      exact hbreak
    have hbegun := length_stages (break?_of_lastBreak? hnone)
    rw [hstages, hafter, List.length_append, List.length_singleton] at hbegun
    exact hbegun
  · exact List.length_eq_zero_iff.1 (by omega)

/-- In a session, a program that ends itself leaves its status to the process, which keeps it unless
what is carried out behind the session breaks the process off or leaves another. -/
theorem ending_of_session_return (htask : stage.task = .prompt) (hbreak : lastBreak? after = none)
    (hlater : Trial.lastStatus? (Stage.allTrials after) = none) :
    ending (stages disk index tasks runner) = .exited status := by
  obtain ⟨hnone, -⟩ := after_session_eq_nil_iff hstages htask
  obtain ⟨earlier, htrials⟩ := last_of_return hstages htrial hstatus
  -- the program that ended itself is the last one of its session
  have hlast : Trial.lastStatus? stage.trials = some status := by
    rw [htrials, Trial.lastStatus?_append, Trial.lastStatus?_singleton, hstatus, Option.some_or]
  have hall : Trial.lastStatus? (Stage.allTrials (stages disk index tasks runner)) =
      some status := by
    have hsingle : Stage.allTrials [stage] = stage.trials := List.append_nil _
    rw [hstages, Stage.allTrials_append, Stage.allTrials_cons, Trial.lastStatus?_append,
      Trial.lastStatus?_append, hlater, hsingle, hlast]
    rfl
  have hunbroken : lastBreak? (stages disk index tasks runner) = none := by
    rw [hstages, lastBreak?_append, lastBreak?_cons hnone, hbreak]
  rw [ending, hunbroken, hall]
  rfl

end Return

/-- **What is still carried out once a program has ended itself.** The stages of a process account for
all of its statements, and tell how it ends. A program that ends itself is the last of its stage.
Outside of a session it is the last of the process, which ends with its status. In a session it only
ends the session: every task behind it is still begun, and the process ends with its status unless
what is carried out there breaks the process off or leaves another one. -/
theorem stages_behind_return (disk : Disk) (config : Config) (session : Session)
    (input : List String) (tasks : List Task) :
    let result := perform disk tasks { config, session, input }
    let stages := history disk tasks { config, session, input }
    (left result).steps = Trial.totalSteps (Stage.allTrials stages) ∧
    (Outcome.ofResult result).ending = ending stages ∧
    ∀ before stage after, stages = before ++ stage :: after →
      ∀ trial ∈ stage.trials, ∀ status, trial.status? = some status →
        (∃ earlier, stage.trials = earlier ++ [trial]) ∧
        (stage.task ≠ .prompt → after = [] ∧ ending stages = .exited status) ∧
        (stage.task = .prompt →
          (after = [] ↔ before.length + 1 = (Task.orPrompt tasks).length) ∧
          (lastBreak? after = none → Trial.lastStatus? (Stage.allTrials after) = none →
            ending stages = .exited status)) := by
  intro result stages
  obtain ⟨hending, hsteps⟩ := perform_ends disk config session input tasks
  refine ⟨hsteps, hending, fun before stage after hstages trial htrial status hstatus => ?_⟩
  refine ⟨last_of_return hstages htrial hstatus, ending_of_return hstages htrial hstatus,
    fun htask => ⟨(after_session_eq_nil_iff hstages htask).2, ?_⟩⟩
  exact ending_of_session_return hstages htrial hstatus htask

/-- A session in which a program ends itself with the status one, before other tasks. -/
theorem stages_behind_typed_return (disk : Disk) (rest : List Task) :
    ∃ trial middle, stages disk 1 (.prompt :: rest) { input := ["return \"a\" != \"b\""] } =
        ⟨.prompt, [trial], none⟩ :: stages disk 1 rest middle ∧
      trial.status? = some 1 ∧ middle.session = ⟨.ofList [], 19⟩ ∧ middle.config = {} := by
  let runner : Runner := { input := ["return \"a\" != \"b\""] }
  -- what is read under a low limit is read under the limit of the session
  have hlimit : 9 ≤ Program.nestingLimit := by decide
  have hread : Program.ofSource 9 (some Prompt.sourceName) 0 "return \"a\" != \"b\"\n" =
      .ok [.ret (.binary (.string ⟨"a", 7⟩ (some ⟨some "<REPL>", 1, 8⟩)) .differ
        (.string ⟨"b", 14⟩ (some ⟨some "<REPL>", 1, 15⟩)) (some ⟨some "<REPL>", 1, 12⟩))
        (some ⟨some "<REPL>", 1, 1⟩)] := by cbv
  replace hread := Program.ofSource_of_le hlimit hread (by rintro _ ⟨⟩)
  have hreply : runner.replyTo ⟨"return \"a\" != \"b\"\n", Prompt.sourceName⟩ =
      { outcome := .error (.halted (.ended 1 (.boolean true)))
        session := ⟨.ofList [], 19⟩
        steps := 1 } := by
    refine (Session.run_of_ofSource hread).trans ?_
    cbv
  have hsubmission : Prompt.submission? "" "return \"a\" != \"b\"" =
      some ⟨"return \"a\" != \"b\"\n", Prompt.sourceName⟩ := by decide +kernel
  have houtcome := congrArg Reply.outcome hreply
  obtain ⟨middle, hstages, hsession, hconfig⟩ :=
    stages_of_session_return disk 1 rest runner rfl hsubmission houtcome
  refine ⟨_, middle, hstages, (Trial.status?_of_ended _ houtcome).1, ?_, hconfig⟩
  rw [hsession, hreply]

/-- A program ends a session, and the inline code behind it, which does not end itself, leaves its
status as it is. -/
theorem stages_behind_return_before_print :
    let code := "print \"a\""
    let runner : Runner := { input := ["return \"a\" != \"b\""] }
    ∃ first second,
      history (.ofFiles []) [.prompt, .code code] runner =
        [⟨.prompt, [first], none⟩, ⟨.code code, [second], none⟩] ∧
      first.status? = some 1 ∧ second.reply.steps = 1 ∧
      (Outcome.ofResult (perform (.ofFiles []) [.prompt, .code code] runner)).ending =
        .exited 1 := by
  intro code runner
  obtain ⟨first, middle, hstages, hstatus, hsession, hconfig⟩ :=
    stages_behind_typed_return (.ofFiles []) [.code code]
  have hlimit : 9 ≤ Program.nestingLimit := by decide
  have hread : Program.ofSource 9 (some "<INPUT_1>") 19 "print \"a\"\n" =
      .ok [.print (.string ⟨"a", 25⟩ (some ⟨some "<INPUT_1>", 1, 7⟩))
        (some ⟨some "<INPUT_1>", 1, 1⟩)] := by cbv
  replace hread := Program.ofSource_of_le hlimit hread (by rintro _ ⟨⟩)
  have hsource : inlineSource 1 code = ⟨"print \"a\"\n", "<INPUT_1>"⟩ := by decide +kernel
  have hreply : middle.replyTo (inlineSource 1 code) =
      { outcome := .ok none
        session := ⟨.ofList [], 29⟩
        journal := [.printed "a"]
        steps := 1 } := by
    rw [Runner.replyTo, hsession, hconfig, hsource]
    refine (Session.run_of_ofSource hread).trans ?_
    cbv
  have hcompleted := (middle.trial (inlineSource 1 code)).status?_of_ok (congrArg Reply.outcome hreply)
  have hquiet : (middle.trial (inlineSource 1 code)).stops middle.config.ignore = false := by
    rw [Trial.stops, hcompleted.1, hcompleted.2]
    rfl
  have hcode : stage (.ofFiles []) 1 middle (.code code) =
      ⟨.code code, [middle.trial (inlineSource 1 code)], none⟩ :=
    Stage.ofSource_of_quiet (.code code) hquiet
  rw [stages_singleton, hcode] at hstages
  refine ⟨first, middle.trial (inlineSource 1 code), hstages, hstatus, congrArg Reply.steps hreply, ?_⟩
  obtain ⟨-, hending, hbehind⟩ :=
    stages_behind_return (.ofFiles []) {} {} runner.input [.prompt, .code code]
  have hsession := (hbehind [] _ _ hstages first List.mem_cons_self 1 hstatus).2.2 rfl
  refine hending.trans (hsession.2 rfl ?_)
  exact (Trial.lastStatus?_singleton _).trans hcompleted.1

/-- The process goes on behind a session that a program has ended: inline code is carried out, and
its status replaces the one of before. -/
theorem status_replaced_behind_session :
    let code := "print \"a\"\nreturn \"a\" != \"a\""
    let runner : Runner := { input := ["return \"a\" != \"b\""] }
    ∃ first second,
      history (.ofFiles []) [.prompt, .code code] runner =
        [⟨.prompt, [first], none⟩, ⟨.code code, [second], some (.ended 0)⟩] ∧
      first.status? = some 1 ∧ second.reply.steps = 2 ∧
      (Outcome.ofResult (perform (.ofFiles []) [.prompt, .code code] runner)).ending =
        .exited 0 := by
  intro code runner
  obtain ⟨first, middle, hstages, hstatus, hsession, hconfig⟩ :=
    stages_behind_typed_return (.ofFiles []) [.code code]
  have hlimit : 9 ≤ Program.nestingLimit := by decide
  have hread : Program.ofSource 9 (some "<INPUT_1>") 19
      "print \"a\"\nreturn \"a\" != \"a\"\n" =
      .ok [.print (.string ⟨"a", 25⟩ (some ⟨some "<INPUT_1>", 1, 7⟩)) (some ⟨some "<INPUT_1>", 1, 1⟩),
        .ret (.binary (.string ⟨"a", 36⟩ (some ⟨some "<INPUT_1>", 2, 8⟩)) .differ
          (.string ⟨"a", 43⟩ (some ⟨some "<INPUT_1>", 2, 15⟩)) (some ⟨some "<INPUT_1>", 2, 12⟩))
          (some ⟨some "<INPUT_1>", 2, 1⟩)] := by cbv
  replace hread := Program.ofSource_of_le hlimit hread (by rintro _ ⟨⟩)
  have hsource : inlineSource 1 code =
      ⟨"print \"a\"\nreturn \"a\" != \"a\"\n", "<INPUT_1>"⟩ := by decide +kernel
  have hreply : middle.replyTo (inlineSource 1 code) =
      { outcome := .error (.halted (.ended 0 (.boolean false)))
        session := ⟨.ofList [], 48⟩
        journal := [.printed "a"]
        steps := 2 } := by
    rw [Runner.replyTo, hsession, hconfig, hsource]
    refine (Session.run_of_ofSource hread).trans ?_
    cbv
  have hended := (middle.trial (inlineSource 1 code)).status?_of_ended (congrArg Reply.outcome hreply)
  have hcode : stage (.ofFiles []) 1 middle (.code code) =
      ⟨.code code, [middle.trial (inlineSource 1 code)], some (.ended 0)⟩ :=
    Stage.ofSource_of_ended (.code code) hended.1
  rw [stages_singleton, hcode] at hstages
  refine ⟨first, middle.trial (inlineSource 1 code), hstages, hstatus, congrArg Reply.steps hreply, ?_⟩
  have hends := (perform_ends (.ofFiles []) {} {} runner.input [.prompt, .code code]).1
  refine hends.trans ?_
  have hhistory : history (.ofFiles []) [.prompt, .code code] runner = _ := hstages
  rw [hhistory]
  rfl

end CommandLine

end Scriptlet
