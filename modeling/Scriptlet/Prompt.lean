import Scriptlet.Runner

/-! # The prompt

An interactive session reads lines into a buffer. After every line the buffer is run as a program;
it is kept only if it is incomplete, so that the next line continues it. -/

namespace Scriptlet.Prompt

/-- The name of what is typed. -/
def sourceName : String := "<REPL>"

/-- What is shown first. -/
def greeting : String :=
  "lumen - Scripting language REPL; type `exit` or Ctrl+C to exit."

/-- What is shown before a line is read: whether it begins a program or continues one. -/
def mark (buffer : String) : String :=
  Text.cyan (if Text.isBlankText buffer then "<<< " else "... ")

/-- Whether a line ends the session when it begins a program. -/
def isFarewell (line : String) : Bool :=
  let word := Text.trim line
  word == "quit" || word == "exit"

/-- What comes of submitting a buffer. -/
inductive Verdict where
  /-- The session goes on with a buffer. -/
  | goOn (buffer : String)
  /-- A program ended itself, and the session with it. -/
  | leave
  deriving Repr, DecidableEq

/-- Runs a buffer as a program, and shows its result. -/
def submit (buffer : String) : Action Verdict := do
  let source : Source := ⟨buffer, sourceName⟩
  match ← Runner.attempt source with
  | .ok result =>
    match result with
    | some value => Runner.put .output (Text.grey ">>>" ++ " " ++ value.shown ++ "\n")
    | none => pure ()
    return .goOn ""
  -- the status is kept, but only the session is left
  | .error (.halted (.ended status _)) =>
    modify fun runner => { runner with status := some status }
    return .leave
  | .error failure =>
    match Problem.ofFailure? failure with
    | some problem => return .goOn (if ← Runner.handle source true problem then buffer else "")
    | none => return .goOn ""

/-- Takes in one line: a blank line changes nothing between programs, a farewell ends the session
there, and every other line is added to the buffer. -/
def step (buffer line : String) : Action Verdict :=
  if buffer.isEmpty && Text.isBlankText line then return .goOn buffer
  else if buffer.isEmpty && isFarewell line then return .leave
  else submit (buffer ++ line ++ "\n")

/-- Reads lines until the session is left or the input ends. The answer is the lines that were not
read. -/
def loop (buffer : String) : List String → Action (List String)
  | [] => do
    Runner.put .output (mark buffer)
    -- the input has ended behind the mark, on the same line
    Runner.put .output "\n"
    return []
  | line :: rest => do
    Runner.put .output (mark buffer)
    match ← step buffer line with
    | .goOn buffer => loop buffer rest
    | .leave => return rest

/-- Holds an interactive session on the lines of the input. -/
def converse : Action Unit := do
  Runner.put .output (greeting ++ "\n")
  let rest ← loop "" (← get).input
  modify fun runner => { runner with input := rest }

end Scriptlet.Prompt
