import Mathlib.Data.List.Chain
import Scriptlet.Proofs.BlankLines
import Scriptlet.Proofs.Rereading
import Scriptlet.Prompt

/-! # Interactive sessions

An interactive session is a row of turns: a prompt is shown, a line is read, and something comes of
it. What can come of it is said once, in `Turn`; everything about whole sessions follows from there
by going along the lines.

* `Prompt.Moment`, `Prompt.moments`: the times at which a session prompts.
* `Prompt.Turn`, `Prompt.turn_eq`: what one turn does.
* `Prompt.moments_keep_only_incomplete`: a buffer is kept only if it is incomplete and nothing of it
  was executed, so no line is executed twice. -/

namespace Scriptlet

/-- The reply to a text in the session of a runner, as it is set up. -/
def Runner.replyTo (runner : Runner) (source : Source) : Reply (Option Value) :=
  runner.session.run { verbosity := runner.config.verbosity } (some source.filename) source.text

/-- A runner after texts were written. -/
def Runner.wrote (runner : Runner) (writes : List Write) : Runner :=
  { runner with writes := runner.writes ++ writes }

/-- A runner after it has carried a reply over into its session, its count and what it wrote. -/
def Runner.carried (runner : Runner) (reply : Reply (Option Value)) : Runner :=
  { runner with
    session := reply.session
    steps := runner.steps + reply.steps
    writes := runner.writes ++ reply.journal.filterMap Event.write? }

namespace Prompt

/-- Lines as a text, each with a newline behind it. -/
def joined (lines : List String) : String :=
  String.join (lines.map (· ++ "\n"))

/-- What is written when a session prompts. -/
def promptWrite (buffer : String) : Write :=
  ⟨.output, mark buffer⟩

/-- The write that shows a result, if there is one. -/
def echo : Option Value → List Write
  | some value => [⟨.output, Text.grey ">>>" ++ " " ++ value.shown ++ "\n"⟩]
  | none => []

/-- What is submitted when a line is read: nothing at a blank line or a farewell between programs,
and else the buffer with the line. -/
def submission? (buffer line : String) : Option Source :=
  if buffer.isEmpty && (Text.isBlankText line || isFarewell line) then none
  else some ⟨buffer ++ line ++ "\n", sourceName⟩

/-- One turn: the prompt, and what comes of the line. -/
def turn (buffer line : String) : Action Verdict := do
  Runner.put .output (mark buffer)
  step buffer line

/-! ## One turn -/

/-- What comes of a turn, and the runner behind it. -/
inductive Turn (runner : Runner) (buffer line : String) : Verdict → Runner → Prop where
  /-- Between programs a blank line is passed over. -/
  | skipped (hbuffer : buffer = "") (hline : Text.isBlankText line = true) :
    Turn runner buffer line (.goOn "") (runner.wrote [promptWrite buffer])
  /-- Between programs a farewell ends the session. -/
  | farewell (hsubmission : submission? buffer line = none) :
    Turn runner buffer line .leave (runner.wrote [promptWrite buffer])
  /-- A text that is incomplete is kept, and only its handles are taken. -/
  | awaited {source : Source} {rejection : Rejection} {wanted : Expectation}
    (hsubmission : submission? buffer line = some source)
    (hread : Program.ofSource Program.nestingLimit (some source.filename) runner.session.nextHandle
      source.text = .error rejection)
    (hfault : rejection.fault = .incomplete wanted) :
    Turn runner buffer line (.goOn source.text)
      { runner.wrote [promptWrite buffer] with session := runner.session.afterReading source.text }
  /-- A program that runs to its end is followed by its result. -/
  | finished {source : Source} {result : Option Value}
    (hsubmission : submission? buffer line = some source)
    (houtcome : (runner.replyTo source).outcome = .ok result) :
    Turn runner buffer line (.goOn "")
      (((runner.wrote [promptWrite buffer]).carried (runner.replyTo source)).wrote (echo result))
  /-- A program that ends itself ends the session. -/
  | ended {source : Source} {status : Int} {value : Value}
    (hsubmission : submission? buffer line = some source)
    (houtcome : (runner.replyTo source).outcome = .error (.halted (.ended status value))) :
    Turn runner buffer line .leave
      { (runner.wrote [promptWrite buffer]).carried (runner.replyTo source) with
        status := some status }
  /-- Every other problem is reported, and the buffer is dropped. -/
  | reported {source : Source} {failure : Failure} {problem : Problem}
    (hsubmission : submission? buffer line = some source)
    (houtcome : (runner.replyTo source).outcome = .error failure)
    (hproblem : Problem.ofFailure? failure = some problem)
    (hcomplete : problem.isIncomplete = false) :
    Turn runner buffer line (.goOn "")
      (((runner.wrote [promptWrite buffer]).carried (runner.replyTo source)).wrote
        ((problem.report source.filename source.text).map (⟨.error, ·⟩)))

/-- Only a program that ended itself is no problem. -/
theorem ended_of_ofFailure?_eq_none {failure : Failure} (h : Problem.ofFailure? failure = none) :
    ∃ status value, failure = .halted (.ended status value) := by
  unfold Problem.ofFailure? at h
  split at h <;> cases h
  exact ⟨_, _, rfl⟩

section Submit

variable {runner : Runner} {buffer : String}

/-- What is made of the outcome when a buffer was submitted. -/
def conclude (buffer : String) : Except Failure (Option Value) → Action Verdict
  | .ok result => do
    match result with
    | some value => Runner.put .output (Text.grey ">>>" ++ " " ++ value.shown ++ "\n")
    | none => pure ()
    return .goOn ""
  | .error (.halted (.ended status _)) => do
    modify fun runner => { runner with status := some status }
    return .leave
  | .error failure =>
    match Problem.ofFailure? failure with
    | some problem =>
      return .goOn (if ← Runner.handle ⟨buffer, sourceName⟩ true problem then buffer else "")
    | none => return .goOn ""

/-- Submitting a buffer begins with the reply to it. -/
theorem submit_eq (runner : Runner) (buffer : String) :
    submit buffer runner = conclude buffer (runner.replyTo ⟨buffer, sourceName⟩).outcome
      (runner.carried (runner.replyTo ⟨buffer, sourceName⟩)) :=
  rfl

/-- A text that is carried out to its end shows its result, and the session goes on between
programs. -/
theorem submit_of_ok {result : Option Value}
    (h : (runner.replyTo ⟨buffer, sourceName⟩).outcome = .ok result) :
    submit buffer runner =
      .ok (.goOn "") ((runner.carried (runner.replyTo ⟨buffer, sourceName⟩)).wrote (echo result)) := by
  rw [submit_eq, h]
  cases result with
  | some value => rfl
  | none =>
    simp only [echo, Runner.wrote, List.append_nil]
    rfl

/-- A program that ends itself has the session left with its status. -/
theorem submit_of_ended {status : Int} {value : Value}
    (h : (runner.replyTo ⟨buffer, sourceName⟩).outcome = .error (.halted (.ended status value))) :
    submit buffer runner =
      .ok .leave { runner.carried (runner.replyTo ⟨buffer, sourceName⟩) with
        status := some status } := by
  rw [submit_eq, h]
  rfl

/-- A problem that more text may solve keeps the buffer, and every other one is reported. -/
theorem submit_of_problem (runner : Runner) {failure : Failure} {problem : Problem}
    (h : (runner.replyTo ⟨buffer, sourceName⟩).outcome = .error failure)
    (hproblem : Problem.ofFailure? failure = some problem) :
    submit buffer runner =
      if problem.isIncomplete then
        .ok (.goOn buffer) (runner.carried (runner.replyTo ⟨buffer, sourceName⟩))
      else
        .ok (.goOn "") ((runner.carried (runner.replyTo ⟨buffer, sourceName⟩)).wrote
          ((problem.report sourceName buffer).map (⟨.error, ·⟩))) := by
  rw [submit_eq, h]
  -- of the three ways to conclude only the last fits a problem
  have hconclude : conclude buffer (.error failure) =
      (do return .goOn (if ← Runner.handle ⟨buffer, sourceName⟩ true problem then buffer else "")) := by
    unfold conclude
    split
    · rename_i hended
      cases hended
    · rename_i hended
      cases hended
      cases hproblem
    · rename_i hfailure
      cases hfailure
      rw [hproblem]
  rw [hconclude]
  cases hincomplete : problem.isIncomplete with
  | true =>
    simp only [Runner.handle, hincomplete]
    rfl
  | false =>
    simp only [Runner.handle, hincomplete]
    rfl

end Submit

/-- Only a text that ends too early is incomplete. -/
theorem incomplete_of_ofRejection {rejection : Rejection}
    (h : (Problem.ofRejection rejection).isIncomplete = true) :
    ∃ wanted, rejection.fault = .incomplete wanted := by
  unfold Problem.ofRejection at h
  split at h
  · cases h
  · rename_i wanted hfault
    exact ⟨wanted, hfault⟩
  · cases h
  · cases h

/-- No run that was begun is incomplete. -/
theorem isIncomplete_of_halted {halt : Halt} {problem : Problem}
    (h : Problem.ofFailure? (.halted halt) = some problem) : problem.isIncomplete = false := by
  cases halt with
  | failed fault =>
    cases h
    unfold Problem.ofFault
    split <;> rfl
  | ended => cases h
  | broken | tooDeep | gap | absent =>
    cases h
    rfl

/-- A problem that more text may solve was found before anything was run. -/
theorem incomplete_of_reply {runner : Runner} {source : Source} {failure : Failure}
    {problem : Problem} (houtcome : (runner.replyTo source).outcome = .error failure)
    (hproblem : Problem.ofFailure? failure = some problem) (hincomplete : problem.isIncomplete = true) :
    ∃ rejection wanted,
      Program.ofSource Program.nestingLimit (some source.filename) runner.session.nextHandle
        source.text = .error rejection ∧
      rejection.fault = .incomplete wanted := by
  unfold Runner.replyTo at houtcome
  cases hread : Program.ofSource Program.nestingLimit (some source.filename)
      runner.session.nextHandle source.text with
  | error rejection =>
    rw [Session.run_of_ofSource_error hread] at houtcome
    cases houtcome
    cases hproblem
    obtain ⟨wanted, hfault⟩ := incomplete_of_ofRejection hincomplete
    exact ⟨rejection, wanted, rfl, hfault⟩
  | ok program =>
    -- a program that was read and fails comes to a problem that no further text solves
    exfalso
    rw [Session.run_of_ofSource hread, Session.execute] at houtcome
    cases hrun : Stmt.executeAll { verbosity := runner.config.verbosity } program
        (runner.session.afterReading source.text).machine with
    | ok result machine =>
      rw [hrun] at houtcome
      cases houtcome
    | error halt machine =>
      rw [hrun] at houtcome
      cases houtcome
      rw [isIncomplete_of_halted hproblem] at hincomplete
      cases hincomplete

/-- A line that completes a submission shows the prompt and submits it. -/
theorem turn_of_submission (runner : Runner) {buffer line : String} {source : Source}
    (h : submission? buffer line = some source) :
    turn buffer line runner = submit source.text (runner.wrote [promptWrite buffer]) ∧
      source.filename = sourceName := by
  unfold submission? at h
  split at h
  · cases h
  · rename_i hsubmits
    rw [Bool.and_or_distrib_left, Bool.or_eq_true, not_or] at hsubmits
    cases h
    have hturn : turn buffer line runner = step buffer line (runner.wrote [promptWrite buffer]) := rfl
    rw [hturn, step, if_neg hsubmits.1, if_neg hsubmits.2]
    exact ⟨rfl, rfl⟩

/-- A line that submits nothing shows the prompt only; it is passed over, or ends the session. -/
theorem turn_of_no_submission (runner : Runner) {buffer line : String}
    (h : submission? buffer line = none) :
    turn buffer line runner =
        .ok (if Text.isBlankText line then .goOn "" else .leave) (runner.wrote [promptWrite buffer]) ∧
      buffer = "" := by
  unfold submission? at h
  split at h
  · rename_i hskips
    obtain ⟨hempty, hline⟩ := Bool.and_eq_true_iff.1 hskips
    have hbuffer : buffer = "" := String.isEmpty_iff.1 hempty
    subst hbuffer
    have hturn : turn "" line runner = step "" line (runner.wrote [promptWrite ""]) := rfl
    refine ⟨?_, rfl⟩
    rw [hturn, step]
    -- a blank line goes on; if it is not blank, it is a farewell
    cases hblank : Text.isBlankText line with
    | true => rfl
    | false =>
      rw [hblank, Bool.false_or] at hline
      rw [hline]
      rfl
  · cases h

/-- A text that is incomplete is kept, and only its handles are taken. -/
theorem turn_of_incomplete (runner : Runner) {buffer line : String} {source : Source}
    {rejection : Rejection} {wanted : Expectation}
    (hsubmission : submission? buffer line = some source)
    (hread : Program.ofSource Program.nestingLimit (some source.filename) runner.session.nextHandle
      source.text = .error rejection)
    (hfault : rejection.fault = .incomplete wanted) :
    turn buffer line runner = .ok (.goOn source.text)
      { runner.wrote [promptWrite buffer] with
        session := runner.session.afterReading source.text } := by
  obtain ⟨hturn, hname⟩ := turn_of_submission runner hsubmission
  obtain ⟨text, filename⟩ := source
  subst hname
  -- nothing was executed: only the handles of the literals are taken
  have hreply : (runner.wrote [promptWrite buffer]).replyTo ⟨text, sourceName⟩ =
      { outcome := .error (.rejected rejection), session := runner.session.afterReading text } :=
    Session.run_of_ofSource_error hread
  have hincomplete : (Problem.ofRejection rejection).isIncomplete = true := by
    rw [Problem.ofRejection, hfault]
    rfl
  have hsubmit := submit_of_problem (runner.wrote [promptWrite buffer]) (by rw [hreply]) rfl
  rw [if_pos hincomplete, hreply] at hsubmit
  rw [hturn, hsubmit]
  simp only [Runner.carried, Nat.add_zero, List.filterMap_nil, List.append_nil]

/-- A program that runs to its end is followed by its result. -/
theorem turn_of_result (runner : Runner) {buffer line : String} {source : Source}
    {result : Option Value} (hsubmission : submission? buffer line = some source)
    (houtcome : (runner.replyTo source).outcome = .ok result) :
    turn buffer line runner = .ok (.goOn "")
      (((runner.wrote [promptWrite buffer]).carried (runner.replyTo source)).wrote
        (echo result)) := by
  obtain ⟨hturn, hname⟩ := turn_of_submission runner hsubmission
  obtain ⟨text, filename⟩ := source
  subst hname
  rw [hturn]
  exact submit_of_ok houtcome

/-- **A turn comes to one of the things that are listed**; it never breaks off. -/
theorem turn_eq (runner : Runner) (buffer line : String) :
    ∃ verdict after, turn buffer line runner = .ok verdict after ∧
      Turn runner buffer line verdict after := by
  cases hsubmission : submission? buffer line with
  | none =>
    obtain ⟨hturn, hbuffer⟩ := turn_of_no_submission runner hsubmission
    rw [hturn]
    by_cases hblank : Text.isBlankText line = true
    · rw [if_pos hblank]
      exact ⟨_, _, rfl, .skipped hbuffer hblank⟩
    · rw [if_neg hblank]
      exact ⟨_, _, rfl, .farewell hsubmission⟩
  | some source =>
    cases houtcome : (runner.replyTo source).outcome with
    | ok result =>
      exact ⟨_, _, turn_of_result runner hsubmission houtcome, .finished hsubmission houtcome⟩
    | error failure =>
      obtain ⟨hturn, hname⟩ := turn_of_submission runner hsubmission
      obtain ⟨text, filename⟩ := source
      subst hname
      -- a failure without a problem is a program that ended itself
      cases hproblem : Problem.ofFailure? failure with
      | none =>
        obtain ⟨status, value, rfl⟩ := ended_of_ofFailure?_eq_none hproblem
        rw [hturn]
        exact ⟨_, _, submit_of_ended houtcome, .ended hsubmission houtcome⟩
      | some problem =>
        cases hincomplete : problem.isIncomplete with
        | false =>
          have hsubmit := submit_of_problem (runner.wrote [promptWrite buffer]) houtcome hproblem
          rw [hincomplete] at hsubmit
          rw [hturn]
          exact ⟨_, _, hsubmit, .reported hsubmission houtcome hproblem hincomplete⟩
        | true =>
          obtain ⟨rejection, wanted, hread, hfault⟩ :=
            incomplete_of_reply houtcome hproblem hincomplete
          exact ⟨_, _, turn_of_incomplete runner hsubmission hread hfault,
            .awaited hsubmission hread hfault⟩

/-- The text that begins to execute when a line is read: what is submitted, if it is a program. -/
def started? (runner : Runner) (buffer line : String) : Option String :=
  match submission? buffer line with
  | none => none
  | some source =>
    match Program.ofSource Program.nestingLimit (some source.filename) runner.session.nextHandle
        source.text with
    | .ok _ => some source.text
    | .error _ => none

/-- A newline ends the text, and more text could complete it to a program. -/
structure Awaits (text : String) : Prop where
  newline : ∃ lines, text = lines ++ "\n"
  incomplete : ∀ filename firstHandle, ∃ rejection wanted,
    Program.ofSource Program.nestingLimit filename firstHandle text = .error rejection ∧
      rejection.fault = .incomplete wanted

section Turn

variable {runner after : Runner} {buffer buffer' line : String} {verdict : Verdict}

/-- What is submitted is the buffer with the line. -/
theorem submission?_eq_some {source : Source} (h : submission? buffer line = some source) :
    source = ⟨buffer ++ line ++ "\n", sourceName⟩ := by
  unfold submission? at h
  split at h
  · cases h
  · exact (Option.some.inj h).symm

/-- Nothing begins to execute at a line, or the buffer with the line does. -/
theorem started?_cases (runner : Runner) (buffer line : String) :
    started? runner buffer line = none ∨
      started? runner buffer line = some (buffer ++ line ++ "\n") := by
  unfold started?
  split
  · exact .inl rfl
  · rename_i source hsubmission
    split
    · rw [submission?_eq_some hsubmission]
      exact .inr rfl
    · exact .inl rfl

/-- A text that does not begin to execute is refused, and nothing else happens. -/
theorem replyTo_of_not_started {source : Source} (hsubmission : submission? buffer line = some source)
    (h : started? runner buffer line = none) :
    ∃ rejection, runner.replyTo source =
      { outcome := .error (.rejected rejection)
        session := runner.session.afterReading source.text } := by
  unfold started? at h
  rw [hsubmission] at h
  dsimp only at h
  split at h
  · cases h
  · rename_i rejection hread
    exact ⟨rejection, Session.run_of_ofSource_error hread⟩

/-- Every turn shows its prompt first. -/
theorem Turn.prompts (h : Turn runner buffer line verdict after) :
    runner.writes ++ [promptWrite buffer] <+: after.writes := by
  cases h with
  | skipped => exact List.prefix_refl _
  | farewell => exact List.prefix_refl _
  | awaited => exact List.prefix_refl _
  | finished =>
    -- the prompt is written first, and all the rest stands behind it
    simp only [Runner.wrote, Runner.carried, List.append_assoc]
    exact ⟨_, List.append_assoc _ _ _⟩
  | ended =>
    simp only [Runner.wrote, Runner.carried]
    exact List.prefix_append _ _
  | reported =>
    simp only [Runner.wrote, Runner.carried, List.append_assoc]
    exact ⟨_, List.append_assoc _ _ _⟩

/-- A turn that begins to execute nothing binds nothing and counts no statement. -/
theorem Turn.idle_of_not_started (h : Turn runner buffer line verdict after)
    (hstarted : started? runner buffer line = none) :
    after.session.bindings = runner.session.bindings ∧ after.steps = runner.steps := by
  cases h with
  | skipped => exact ⟨rfl, rfl⟩
  | farewell => exact ⟨rfl, rfl⟩
  | awaited => exact ⟨rfl, rfl⟩
  -- a result or an end of its own would need a program that began to execute
  | finished hsubmission houtcome =>
    obtain ⟨rejection, hreply⟩ := replyTo_of_not_started hsubmission hstarted
    rw [hreply] at houtcome
    cases houtcome
  | ended hsubmission houtcome =>
    obtain ⟨rejection, hreply⟩ := replyTo_of_not_started hsubmission hstarted
    rw [hreply] at houtcome
    cases houtcome
  | reported hsubmission houtcome =>
    obtain ⟨rejection, hreply⟩ := replyTo_of_not_started hsubmission hstarted
    simp only [Runner.wrote, Runner.carried, hreply]
    exact ⟨rfl, rfl⟩

/-- **A buffer is kept only if it is incomplete**; then nothing of it was executed, and nothing was
written but the prompt. -/
theorem Turn.kept (h : Turn runner buffer line (.goOn buffer') after) (hkept : buffer' ≠ "") :
    buffer' = buffer ++ line ++ "\n" ∧ Awaits buffer' ∧ started? runner buffer line = none ∧
      after.writes = runner.writes ++ [promptWrite buffer] := by
  cases h with
  | skipped => exact absurd rfl hkept
  | finished => exact absurd rfl hkept
  | reported => exact absurd rfl hkept
  | @awaited source rejection wanted hsubmission hread hfault =>
    have hsource := submission?_eq_some hsubmission
    refine ⟨by rw [hsource], ⟨⟨buffer ++ line, by rw [hsource]⟩, ?_⟩, ?_, rfl⟩
    · intro filename firstHandle
      exact ⟨_, wanted, Program.ofSource_of_error hread filename firstHandle, hfault⟩
    · simp only [started?, hsubmission, hread]

end Turn

/-! ## Whole sessions -/

/-- A time at which a session prompts: the runner, the buffer and the lines still to be read. -/
structure Moment where
  /-- The runner before the prompt is shown. -/
  runner : Runner
  /-- The lines that are kept, as a text. -/
  buffer : String
  /-- The lines that are still to be read. -/
  lines : List String

/-- The times at which a session prompts, up to the end of the input or until it is left. -/
def moments (runner : Runner) (buffer : String) : List String → List Moment
  | [] => [⟨runner, buffer, []⟩]
  | line :: rest =>
    ⟨runner, buffer, line :: rest⟩ ::
      match turn buffer line runner with
      | .ok (.goOn buffer') after => moments after buffer' rest
      | _ => []

/-- The text that begins to execute behind a prompt. -/
def Moment.started? (moment : Moment) : Option String :=
  moment.lines.head?.bind (Prompt.started? moment.runner moment.buffer)

section Moments

variable {runner after : Runner} {buffer buffer' line : String} {rest : List String}

/-- A session that goes on prompts now, and then as it does with the rest of the lines. -/
theorem moments_of_goOn (h : turn buffer line runner = .ok (.goOn buffer') after) :
    moments runner buffer (line :: rest) =
      ⟨runner, buffer, line :: rest⟩ :: moments after buffer' rest := by
  rw [moments, h]

/-- A session that is left has prompted for the last time. -/
theorem moments_of_leave (h : turn buffer line runner = .ok .leave after) :
    moments runner buffer (line :: rest) = [⟨runner, buffer, line :: rest⟩] := by
  rw [moments, h]

/-- A session that goes on does so with the rest of the lines. -/
theorem loop_of_goOn (h : turn buffer line runner = .ok (.goOn buffer') after) :
    loop buffer (line :: rest) runner = loop buffer' rest after := by
  have hstep : step buffer line (runner.wrote [promptWrite buffer]) = .ok (.goOn buffer') after := h
  show EStateM.bind (step buffer line) _ (runner.wrote [promptWrite buffer]) = _
  rw [EStateM.bind, hstep]

/-- Induction along the moments of a session: it goes on behind a turn, or the turn was its last. -/
theorem moments_induction {motive : Runner → String → List String → Prop}
    (nil : ∀ runner buffer, motive runner buffer [])
    (goOn : ∀ runner buffer line rest buffer' after,
      turn buffer line runner = .ok (.goOn buffer') after →
      Turn runner buffer line (.goOn buffer') after → motive after buffer' rest →
      motive runner buffer (line :: rest))
    (leave : ∀ runner buffer line rest after, turn buffer line runner = .ok .leave after →
      Turn runner buffer line .leave after → motive runner buffer (line :: rest))
    (runner : Runner) (buffer : String) (lines : List String) : motive runner buffer lines := by
  induction lines generalizing runner buffer with
  | nil => exact nil runner buffer
  | cons line rest ih =>
    obtain ⟨verdict, after, heq, hturn⟩ := turn_eq runner buffer line
    cases verdict with
    | goOn buffer' => exact goOn runner buffer line rest buffer' after heq hturn (ih after buffer')
    | leave => exact leave runner buffer line rest after heq hturn

/-- The moments of a session begin with the first. -/
theorem head?_moments (runner : Runner) (buffer : String) (lines : List String) :
    (moments runner buffer lines).head? = some ⟨runner, buffer, lines⟩ := by
  cases lines <;> rfl

end Moments

/-- At every moment of a session the loop is the one that was begun with. -/
theorem loop_of_mem_moments {runner : Runner} {buffer : String} {lines : List String}
    {moment : Moment} (h : moment ∈ moments runner buffer lines) :
    loop moment.buffer moment.lines moment.runner = loop buffer lines runner := by
  induction runner, buffer, lines using moments_induction with
  | nil runner buffer =>
    cases List.mem_singleton.1 h
    rfl
  | goOn runner buffer line rest buffer' after heq _ ih =>
    -- the loop from a later moment is the rest of the loop from here
    rw [moments_of_goOn heq] at h
    rcases List.mem_cons.1 h with rfl | hmem
    · rfl
    · rw [ih hmem, loop_of_goOn heq]
  | leave runner buffer line rest after heq _ =>
    rw [moments_of_leave heq] at h
    cases List.mem_singleton.1 h
    rfl

/-- A buffer is empty or incomplete whenever a session prompts, if it is at first. -/
theorem awaits_of_mem_moments {runner : Runner} {buffer : String} {lines : List String}
    (hbuffer : buffer = "" ∨ Awaits buffer) {moment : Moment}
    (h : moment ∈ moments runner buffer lines) : moment.buffer = "" ∨ Awaits moment.buffer := by
  induction runner, buffer, lines using moments_induction with
  | nil runner buffer =>
    cases List.mem_singleton.1 h
    exact hbuffer
  | goOn runner buffer line rest buffer' after heq hturn ih =>
    rw [moments_of_goOn heq] at h
    rcases List.mem_cons.1 h with rfl | hmem
    · exact hbuffer
    -- what a turn keeps awaits more text
    · refine ih ?_ hmem
      by_cases hkept : buffer' = ""
      · exact .inl hkept
      · exact .inr (hturn.kept hkept).2.1
  | leave runner buffer line rest after heq _ =>
    rw [moments_of_leave heq] at h
    cases List.mem_singleton.1 h
    exact hbuffer

/-- A blank text is a program, so what is incomplete is not blank. -/
theorem Awaits.not_blank {text : String} (h : Awaits text) : Text.isBlankText text = false := by
  cases hblank : Text.isBlankText text with
  | false => rfl
  | true =>
    have hlimit : 2 ≤ Program.nestingLimit := by decide
    obtain ⟨program, hprogram, -⟩ := Program.ofSource_blank hlimit none 0 hblank
    obtain ⟨rejection, -, hrejected, -⟩ := h.incomplete none 0
    rw [hprogram] at hrejected
    cases hrejected

/-- The prompt tells whether a buffer is kept. -/
theorem mark_eq {buffer : String} (h : buffer = "" ∨ Awaits buffer) :
    mark buffer = Text.cyan (if buffer = "" then "<<< " else "... ") := by
  rcases h with rfl | hawaits
  · rfl
  · have hne : buffer ≠ "" := by
      rintro rfl
      exact absurd hawaits.not_blank (by decide)
    rw [mark, hawaits.not_blank, if_neg hne]
    rfl

/-- What one turn leaves to the next: without a program that began to execute nothing changed, and a
buffer that is kept did not begin to execute. -/
def Moment.Precedes (moment next : Moment) : Prop :=
  moment.runner.writes ++ [promptWrite moment.buffer] <+: next.runner.writes ∧
  (moment.started? = none →
    next.runner.session.bindings = moment.runner.session.bindings ∧
    next.runner.steps = moment.runner.steps) ∧
  (next.buffer ≠ "" →
    moment.started? = none ∧
    next.runner.writes = moment.runner.writes ++ [promptWrite moment.buffer])

/-- Each moment of a session precedes the next one. -/
theorem isChain_moments (runner : Runner) (buffer : String) (lines : List String) :
    (moments runner buffer lines).IsChain Moment.Precedes := by
  induction runner, buffer, lines using moments_induction with
  | nil runner buffer => exact .singleton _
  | goOn runner buffer line rest buffer' after heq hturn ih =>
    -- neighbours are one turn apart, and a turn says all that is asked
    rw [moments_of_goOn heq, List.isChain_cons]
    refine ⟨?_, ih⟩
    intro next hnext
    rw [head?_moments] at hnext
    cases hnext
    exact ⟨hturn.prompts, hturn.idle_of_not_started,
      fun hkept => (hturn.kept hkept).2.2⟩
  | leave runner buffer line rest after heq _ =>
    rw [moments_of_leave heq]
    exact .singleton _

/-- A further line stands behind the lines that were joined. -/
theorem joined_concat (lines : List String) (line : String) :
    joined (lines ++ [line]) = joined lines ++ line ++ "\n" := by
  simp only [joined, List.map_append, String.join_append, List.map_cons, List.map_nil,
    String.join_cons, String.join_nil, String.append_empty, String.append_assoc]

/-- **The texts that begin to execute are blocks of lines, and no line is in two of them.** By
induction along the session, with the lines that are held in the buffer: a text begins to execute
with all of them, and then none is held any more. -/
theorem blocks_of_moments (runner : Runner) {buffer : String} (held lines : List String)
    (hheld : joined held = buffer) :
    ∃ blocks : List (List String), blocks.flatten.Sublist (held ++ lines) ∧
      (moments runner buffer lines).filterMap Moment.started? = blocks.map joined := by
  induction runner, buffer, lines using moments_induction generalizing held with
  | nil runner buffer => exact ⟨[], List.nil_sublist _, rfl⟩
  | goOn runner buffer line rest buffer' after heq hturn ih =>
    have hblock : joined (held ++ [line]) = buffer ++ line ++ "\n" := by
      rw [joined_concat, hheld]
    have hfirst : Moment.started? ⟨runner, buffer, line :: rest⟩ = started? runner buffer line := rfl
    rw [moments_of_goOn heq, List.filterMap_cons, hfirst]
    -- either the block ends with this line, or it is held and goes on
    by_cases hkept : buffer' = ""
    · obtain ⟨blocks, hsublist, hblocks⟩ := ih [] hkept.symm
      rcases started?_cases runner buffer line with hstarted | hstarted
      · rw [hstarted]
        refine ⟨blocks, hsublist.trans ?_, hblocks⟩
        exact (List.sublist_cons_self line rest).trans (List.sublist_append_right held _)
      · rw [hstarted]
        refine ⟨(held ++ [line]) :: blocks, ?_, by rw [List.map_cons, hblock, hblocks]⟩
        rw [List.flatten_cons, List.append_cons held line rest]
        exact (List.Sublist.refl (held ++ [line])).append hsublist
    · -- the buffer is kept, so the line is held with the others and has not begun to execute
      obtain ⟨hbuffer, -, hstarted, -⟩ := hturn.kept hkept
      obtain ⟨blocks, hsublist, hblocks⟩ := ih (held ++ [line]) (hblock.trans hbuffer.symm)
      rw [hstarted]
      rw [List.append_assoc, List.singleton_append] at hsublist
      exact ⟨blocks, hsublist, hblocks⟩
  | leave runner buffer line rest after heq _ =>
    have hblock : joined (held ++ [line]) = buffer ++ line ++ "\n" := by
      rw [joined_concat, hheld]
    have hfirst : Moment.started? ⟨runner, buffer, line :: rest⟩ = started? runner buffer line := rfl
    rw [moments_of_leave heq, List.filterMap_cons, hfirst]
    rcases started?_cases runner buffer line with hstarted | hstarted
    · rw [hstarted]
      exact ⟨[], List.nil_sublist _, rfl⟩
    · rw [hstarted]
      refine ⟨[held ++ [line]], ?_, by rw [List.map_singleton, hblock]; rfl⟩
      rw [List.flatten_singleton, List.append_cons held line rest]
      exact List.sublist_append_left _ _

/-- **Only what is incomplete is kept.** Whenever an interactive session prompts, on any input and
from any runner, its buffer is empty or a text with a newline at its end that is incomplete, and the
prompt tells which. A buffer is kept only if nothing of it has begun to execute: no name was bound,
no statement was counted, and nothing was written but the prompt. So what begins to execute over the
whole session are blocks of lines, each line at most once. -/
theorem moments_keep_only_incomplete (runner : Runner) (lines : List String) :
    (∀ moment ∈ moments runner "" lines,
      loop moment.buffer moment.lines moment.runner = loop "" lines runner ∧
      (moment.buffer = "" ∨ Awaits moment.buffer) ∧
      mark moment.buffer = Text.cyan (if moment.buffer = "" then "<<< " else "... ")) ∧
    (moments runner "" lines).IsChain (fun moment next =>
      moment.runner.writes ++ [⟨.output, mark moment.buffer⟩] <+: next.runner.writes ∧
      (moment.started? = none →
        next.runner.session.bindings = moment.runner.session.bindings ∧
        next.runner.steps = moment.runner.steps) ∧
      (next.buffer ≠ "" →
        moment.started? = none ∧
        next.runner.writes = moment.runner.writes ++ [⟨.output, mark moment.buffer⟩])) ∧
    ∃ blocks : List (List String), blocks.flatten.Sublist lines ∧
      (moments runner "" lines).filterMap Moment.started? = blocks.map joined := by
  -- at each moment, between two moments in turn, and over the whole session
  refine ⟨fun moment hmem => ?_, isChain_moments runner "" lines,
    blocks_of_moments runner [] lines rfl⟩
  have hbuffer := awaits_of_mem_moments (.inl rfl) hmem
  exact ⟨loop_of_mem_moments hmem, hbuffer, mark_eq hbuffer⟩

end Prompt

end Scriptlet
