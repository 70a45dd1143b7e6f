import Scriptlet.Disk
import Scriptlet.Report

/-! # Runners

A runner carries out whole sources and interactive sessions one after the other on one session,
writes what they print, trace and report, and settles the status of the process. -/

namespace Scriptlet

/-- Where something is written. -/
inductive Channel where
  /-- The output of the process. -/
  | output
  /-- The error stream of the process. -/
  | error
  deriving Repr, DecidableEq

/-- Something written at once. -/
structure Write where
  /-- Where it is written. -/
  channel : Channel
  /-- What is written. -/
  text : String
  deriving Repr, DecidableEq

/-- The write that an event brings about, if it brings about one. -/
def Event.write? : Event → Option Write
  | .printed text => some ⟨.output, text ++ "\n"⟩
  | .numbered steps => some ⟨.error, Trace.stepMark steps⟩
  | .traced line => some ⟨.error, line⟩
  | .stored _ => none

/-- On a plain stream everything goes to the output, without colour codes. -/
def Write.plain (write : Write) : Write :=
  ⟨.output, Text.stripColour write.text⟩

/-- What all writes to a channel amount to. -/
def Channel.text (channel : Channel) (writes : List Write) : String :=
  String.join ((writes.filter (·.channel == channel)).map Write.text)

/-- How a runner is set up. -/
structure Config where
  /-- How much is traced. -/
  verbosity : Nat := 0
  /-- Whether to go on after a problem. -/
  ignore : Bool := false
  /-- Whether to count statements and tell their number. -/
  stats : Bool := false
  /-- Whether everything goes to the output without colour codes. -/
  plain : Bool := false
  /-- Bindings to make first, each as a name, an equals sign and a value. -/
  defines : List String := []
  deriving Repr, DecidableEq

/-- A source with its name. -/
structure Source where
  /-- The text. -/
  text : String
  /-- The name. -/
  filename : String
  deriving Repr, DecidableEq

/-- The state of a runner. -/
structure Runner where
  /-- How it is set up. -/
  config : Config := {}
  /-- The session that all sources share. -/
  session : Session := {}
  /-- How many statements were counted. -/
  steps : Nat := 0
  /-- Whether a problem was reported outside an interactive session. -/
  failure : Bool := false
  /-- The status with which a program ended itself. -/
  status : Option Int := none
  /-- How many sources were carried out without a problem. -/
  completed : Nat := 0
  /-- The lines still to be read from the input. -/
  input : List String := []
  /-- What was written, in order. -/
  writes : List Write := []
  deriving Repr

/-- Why a runner breaks off. -/
inductive Break where
  /-- A program ended itself with a status. -/
  | ended (status : Int)
  /-- A problem ends the process. -/
  | aborted
  /-- A file cannot be read. -/
  | unreadable (fault : DiskFault)
  deriving Repr, DecidableEq

/-- A computation of a runner, which may break off. -/
abbrev Action : Type → Type := EStateM Break Runner

namespace Runner

/-- Writes texts, each at once. -/
def putAll (channel : Channel) (texts : List String) : Action Unit :=
  modify fun runner => { runner with writes := runner.writes ++ texts.map (⟨channel, ·⟩) }

/-- Writes a text. -/
def put (channel : Channel) (text : String) : Action Unit :=
  putAll channel [text]

/-- Runs a source in the session, writing what it prints and traces. -/
def attempt (source : Source) : Action (Except Failure (Option Value)) :=
  modifyGet fun runner =>
    let reply := runner.session.run { verbosity := runner.config.verbosity }
      (some source.filename) source.text
    (reply.outcome,
      { runner with
        session := reply.session
        steps := runner.steps + reply.steps
        writes := runner.writes ++ reply.journal.filterMap Event.write? })

/-- Reports a problem. Outside an interactive session it makes the run a failure, which ends the
process unless problems are ignored. -/
def report (source : Source) (isInteractive : Bool) (problem : Problem) : Action Unit := do
  putAll .error (problem.report source.filename source.text)
  if isInteractive then pure ()
  else do
    modify fun runner => { runner with failure := true }
    if (← get).config.ignore then pure () else throw .aborted

/-- Handles a problem: in an interactive session an incomplete text is not reported, since more
text may follow. The answer is whether it may. -/
def handle (source : Source) (isInteractive : Bool) (problem : Problem) : Action Bool := do
  if isInteractive && problem.isIncomplete then return true
  else do
    report source isInteractive problem
    return false

/-- Carries out a source, and shows its result if asked to. -/
def carryOut (showResult : Bool) (source : Source) : Action Unit := do
  match ← attempt source with
  | .ok result =>
    match result with
    | some value => if showResult then put .output (value.shown ++ "\n")
    | none => pure ()
    modify fun runner => { runner with completed := runner.completed + 1 }
  -- a program that ends itself is not counted here; a batch counts it, a task does not
  | .error (.halted (.ended status _)) => throw (.ended status)
  | .error failure =>
    match Problem.ofFailure? failure with
    | some problem => let _ ← handle source false problem
    | none => pure ()

/-- Carries out sources in order. -/
def carryOutAll : List Source → Action Unit
  | [] => pure ()
  | first :: rest => do
    carryOut false first
    carryOutAll rest

/-- The statistics: how many statements were started. Time is not measured and told as none. -/
def statistics (runner : Runner) : List String :=
  ["\n" ++ Text.heading " STATISTICS. " ++ "\n",
    "step\t" ++ Text.white (Text.thousands runner.steps) ++ "\n",
    "time\t" ++ Text.white "0.000s" ++ "\n"]

/-- The status of the process: the one that a program ended itself with, or else whether there was
a problem. -/
def exitStatus (runner : Runner) : Int :=
  runner.status.getD (if runner.failure then 1 else 0)

/-- Tells the statistics, if any source was carried out, and settles the status of the process. -/
def finish : Action Int := do
  let runner ← get
  if runner.config.stats && 0 < runner.completed then putAll .output runner.statistics
  else pure ()
  return runner.exitStatus

/-- Carries out sources until one of them ends itself, which counts as carried out. -/
def batch (sources : List Source) : Action Int := fun runner =>
  match carryOutAll sources runner with
  | .ok _ after => finish after
  | .error (.ended status) after =>
    finish { after with completed := after.completed + 1, status := some status }
  | .error reason after => .error reason after

end Runner

end Scriptlet
