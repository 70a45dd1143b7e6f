import Scriptlet.CommandLine

/-! # The program

Looks at the files and the input, carries out the command line and writes what comes of it. -/

namespace Scriptlet

/-- Whether an error of the system has the number of an obstacle, which may be given negated. -/
def isNumbered (code : UInt32) (obstacle : Obstacle) : Bool :=
  code == obstacle.code.toUInt32 || code == 0 - obstacle.code.toUInt32

/-- What an error of the system says of a path. -/
def entryOf (path : String) : IO.Error → Except DiskFault Entry
  | .inappropriateType _ code _ =>
    if isNumbered code .isDirectory then .ok .directory else .error (.blocked .notDirectory path)
  | .invalidArgument _ code _ =>
    .error (.blocked (if isNumbered code .tooLong then .tooLong else .missing) path)
  | _ => .error (.blocked .missing path)

/-- Looks up a path. -/
def findEntry (path : String) : IO (Except DiskFault Entry) := do
  try
    return .ok (.file (← IO.FS.readFile path))
  catch error => return entryOf path error

/-- A view of the files that some paths lead to. -/
def findFiles (paths : List String) : IO Disk := do
  let mut found : List (String × Except DiskFault Entry) := []
  for path in paths do
    for known in [path, Disk.tidy path] do
      found := (known, ← findEntry known) :: found
  let entries := found
  return { find := fun path => (entries.lookup path).getD (.error (.blocked .missing path)) }

/-- Writes texts where they belong. -/
def writeAll (writes : List Write) : IO Unit := do
  let output ← IO.getStdout
  let error ← IO.getStderr
  for write in writes do
    match write.channel with
    | .output => output.putStr write.text; output.flush
    | .error => error.putStr write.text; error.flush

/-- Writes what a runner has written since, and forgets it. -/
def flushWrites (runner : Runner) : IO Runner := do
  writeAll (if runner.config.plain then runner.writes.map Write.plain else runner.writes)
  return { runner with writes := [] }

/-- Holds an interactive session on a terminal, line by line. -/
partial def converseOnTerminal (runner : Runner) (buffer : String) : IO Runner := do
  let runner ← flushWrites
    { runner with writes := [⟨.output, Prompt.mark buffer⟩] }
  let line ← (← IO.getStdin).getLine
  if line.isEmpty then
    flushWrites { runner with writes := [⟨.output, "\n"⟩] }
  else
    match Prompt.step buffer (Text.dropTrailingNewlines line) runner with
    | .ok (.goOn buffer) runner => converseOnTerminal (← flushWrites runner) buffer
    | .ok .leave runner | .error _ runner => flushWrites runner

/-- Carries out an interactive session on a terminal, if the arguments ask for nothing else. -/
def runOnTerminal (args : List String) : IO (Option Int) := do
  let (options, rest) := CommandLine.splitOptions args
  let config := CommandLine.configure {} options
  match CommandLine.define {} config.defines with
  | .ok session =>
    if rest.isEmpty || rest == ["--repl"] then
      let writes := [⟨.output, Prompt.greeting ++ "\n"⟩]
      let runner ← flushWrites { config, session, writes }
      let runner ← converseOnTerminal runner ""
      return some runner.exitStatus
    else return none
  | .error _ => return none

/-- The status of a process in one byte. -/
def exitCode (status : Int) : UInt32 :=
  (status % 256).toNat.toUInt32

end Scriptlet

/-- Carries out the command line. -/
def main (args : List String) : IO UInt32 := do
  let input ← IO.getStdin
  let isTerminal ← input.isTty
  let conversation ← if isTerminal then Scriptlet.runOnTerminal args else pure none
  match conversation with
  | some status => return Scriptlet.exitCode status
  | none =>
    let disk ← Scriptlet.findFiles (args.filter fun token => !Scriptlet.Text.begins "-" token)
    let raw ← if isTerminal then pure "" else input.readToEnd
    let outcome := Scriptlet.CommandLine.run disk isTerminal raw args
    Scriptlet.writeAll outcome.writes
    match outcome.ending with
    | .exited status => return Scriptlet.exitCode status
    | .broken fault =>
      Scriptlet.writeAll [⟨.error, fault.message ++ "\n"⟩]
      return 1
