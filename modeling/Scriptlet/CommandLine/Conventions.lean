import Scriptlet.CommandLine.Request

/-! # Conventions of option parsing

What is left to the option parser, a package of its own that the program calls and that is no part of
it: how options add up to the setup of a runner, how a file is opened for a command, where a request
for help is refused, and how a refusal is worded. These are the documented customs of that parser, as
far as the program meets them, and no decisions of its own. -/

namespace Scriptlet.CommandLine

/-! ## Setups -/

/-- Takes one option into the setup of a runner. -/
def applyFlag (config : Config) (token : String) : Config :=
  if token = "--ignore" ∨ token = "-i" then { config with ignore := true }
  else if token = "--stats" then { config with stats := true }
  else if token = "--plain" ∨ token = "-p" then { config with plain := true }
  else if token = "--verbose" then { config with verbosity := config.verbosity + 1 }
  else if Text.begins defineMark token then
    let definition := String.ofList (token.toList.drop defineMark.length)
    { config with defines := config.defines ++ [definition] }
  else { config with verbosity := config.verbosity + (token.length - 1) }

/-- The setup of a runner by its options. -/
def configure (config : Config) : List String → Config
  | [] => config
  | [token] => applyFlag config token
  | token :: next :: rest =>
    if announcesDefinition token then
      configure { config with defines := config.defines ++ [next] } rest
    else configure (applyFlag config token) (next :: rest)

/-! ## Usage -/

namespace UsageFault

/-- The argument that a fault is about, if it is about one in particular. -/
def hint : UsageFault → String
  | .badDefinition _ => " for --define"
  | .unopened .. => " for 'SCRIPT'"
  | _ => ""

/-- The sentence that tells a fault. All but one are about a value. -/
def sentence : UsageFault → String
  | .helpValue => message .helpValue
  | fault => "Invalid value" ++ fault.hint ++ ": " ++ fault.message

end UsageFault

namespace Command

/-- The name of a command. -/
def name : Command → String
  | .file _ | .input => "run-file"
  | .prompt => "run-repl"
  | .tokens _ => "run-dev"

/-- The arguments of a command in a usage line. -/
def arguments : Command → String
  | .file _ | .input => " SCRIPT"
  | .prompt => ""
  | .tokens _ => " [TOKENS]..."

end Command

/-- What is written when the arguments are wrong. -/
def usageText (command : Command) (fault : UsageFault) : String :=
  let called := "lumen " ++ command.name
  Text.stripTerminalCodes <|
    "Usage: " ++ called ++ " [OPTIONS]" ++ command.arguments ++ "\nTry '" ++ called
      ++ " --help' for help.\n\nError: " ++ fault.sentence ++ "\n"

/-! ## Opening -/

/-- A command whose source, if it has only one, is at hand. -/
inductive Job where
  /-- Carry out a source as a whole. -/
  | source (source : Source)
  /-- Hold an interactive session. -/
  | prompt
  /-- Carry out the tasks of some tokens. -/
  | tokens (tokens : List String)
  deriving Repr, DecidableEq

/-- Whether tokens ask for help with a value, which they do not from the first `--` on. -/
def givesHelpValue (tokens : List String) : Bool :=
  (tokens.takeWhile (· != "--")).any (Text.begins "--help=")

/-- Makes a job of a command. A file is opened here: a path that is there once it is tidied need
not be there as it is given. The first `--` among tokens has no meaning of its own. -/
def load (disk : Disk) (input : String) : Command → Except Refusal Job
  | .file path =>
    match disk.read path with
    | .ok text => .ok (.source ⟨text, path⟩)
    | .error (.blocked obstacle _) => .error (.usage (.unopened path obstacle))
    | .error fault => .error (.disk fault)
  | .input => .ok (.source ⟨Text.ofRaw input, "<stdin>"⟩)
  | .prompt => .ok .prompt
  | .tokens tokens =>
    if givesHelpValue tokens then .error (.usage .helpValue)
    else .ok (.tokens (tokens.erase "--"))

end Scriptlet.CommandLine
