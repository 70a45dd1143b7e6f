import Scriptlet.CommandLine.Conventions

/-! # The command line

What comes of the arguments of a process. They are split and dispatched to a command, the option
parser makes a setup and a job of them, and a runner does the job. -/

namespace Scriptlet.CommandLine

/-! ## Tasks in a row -/

/-- Inline code as a source, named by its number. -/
def inlineSource (index : Int) (code : String) : Source :=
  ⟨Text.trimEnd code ++ "\n", "<INPUT_" ++ toString index ++ ">"⟩

/-- Carries out tasks in order; inline code is numbered from the given number on. -/
def carryOutTasks (disk : Disk) (index : Nat) : List Task → Action Unit
  | [] => pure ()
  | .file path :: rest => do
    match disk.read path with
    | .ok text => Runner.carryOut false ⟨text, path⟩
    | .error fault => throw (.unreadable fault)
    carryOutTasks disk index rest
  | .code text :: rest => do
    Runner.carryOut true (inlineSource index text)
    carryOutTasks disk (index + 1) rest
  | .prompt :: rest => do
    Prompt.converse
    carryOutTasks disk index rest

/-- Carries out tasks until a program outside an interactive session ends itself; without tasks,
holds an interactive session. -/
def perform (disk : Disk) (tasks : List Task) : Action Int := fun runner =>
  match carryOutTasks disk 1 tasks runner with
  | .ok _ after =>
    if tasks.isEmpty then (do Prompt.converse; Runner.finish) after else Runner.finish after
  | .error (.ended status) after => Runner.finish { after with status := some status }
  | .error reason after => .error reason after

/-! ## Processes -/

/-- How a process ends. -/
inductive Ending where
  /-- With a status. -/
  | exited (status : Int)
  /-- By a file that cannot be read. -/
  | broken (fault : DiskFault)
  deriving Repr, DecidableEq

/-- What comes of a process. -/
structure Outcome where
  /-- How it ends. -/
  ending : Ending
  /-- What was written, in order. -/
  writes : List Write
  deriving Repr, DecidableEq

namespace Outcome

/-- What comes of a process whose arguments are not carried out. -/
def ofRefusal (command : Command) : Refusal → Outcome
  | .usage fault => ⟨.exited 2, [⟨.error, usageText command fault⟩]⟩
  | .disk fault => ⟨.broken fault, []⟩

/-- What comes of a process whose arguments were carried out on a runner. -/
def ofResult : EStateM.Result Break Runner Int → Outcome
  | .ok status runner => ⟨.exited status, runner.writes⟩
  | .error (.ended status) runner => ⟨.exited status, runner.writes⟩
  | .error .aborted runner => ⟨.exited 1, runner.writes⟩
  | .error (.unreadable fault) runner => ⟨.broken fault, runner.writes⟩

/-- The same, with everything written to a plain stream. -/
def plain (outcome : Outcome) : Outcome :=
  { outcome with writes := outcome.writes.map Write.plain }

end Outcome

/-- The lines of an input; nothing follows a final newline. -/
def inputLines (input : String) : List String :=
  (Text.fileLines input).map Text.dropTrailingNewlines

/-- What a runner has to do for a job. -/
def action (disk : Disk) : Job → Except Refusal (Action Int)
  | .source source => .ok (Runner.batch [source])
  | .prompt => .ok (do Prompt.converse; Runner.finish)
  | .tokens tokens => do
    let found ← tasks disk tokens
    .ok (perform disk found)

/-- Makes a runner with its definitions, and has it do a job. -/
def carryOut (disk : Disk) (config : Config) (input : List String) (job : Job) :
    Except Refusal Outcome := do
  let session ← define {} config.defines
  let action ← action disk job
  .ok (.ofResult (action { config, session, input }))

/-- What comes of the arguments of a process, given the files, the raw input and whether the input
is a terminal. A file to be carried out as a whole is opened first, then the definitions are made,
and only then the tokens are looked at. Nothing is plain before the runner is there. -/
def run (disk : Disk) (isTerminal : Bool) (input : String) (args : List String) : Outcome :=
  let (options, rest) := splitOptions args
  let config := configure {} options
  match dispatch disk isTerminal rest with
  | .error fault => ⟨.broken fault, []⟩
  | .ok command =>
    match load disk input command with
    | .error refusal => .ofRefusal command refusal
    | .ok job =>
      let outcome := match carryOut disk config (inputLines input) job with
        | .ok outcome => outcome
        | .error refusal => .ofRefusal command refusal
      if config.plain then outcome.plain else outcome

end Scriptlet.CommandLine
