import Scriptlet.Prompt

/-! # What the arguments ask for

The arguments of the process are split into options that set up the runner and the rest, which says
what to carry out: a file, the input, inline code, an interactive session, or several of these in a
row. All of this the program decides itself, by looking at the arguments one by one. -/

namespace Scriptlet.CommandLine

/-- What is wrong with the arguments. -/
inductive UsageFault where
  /-- Inline code was announced and is missing. -/
  | missingCode
  /-- Inline code is empty. -/
  | emptyCode
  /-- An option is not known. -/
  | unknownOption (token : String)
  /-- There is nothing at a path. -/
  | notFound (token : String)
  /-- A path does not lead to a source file. -/
  | wrongSuffix (token : String)
  /-- A definition is not a name, an equals sign and a value. -/
  | badDefinition (definition : String)
  /-- The file to be carried out cannot be opened. -/
  | unopened (path : String) (obstacle : Obstacle)
  /-- Help was asked for with a value. -/
  | helpValue
  deriving Repr, DecidableEq

/-- The suffix of source files. -/
def sourceSuffix : String := ".lumen"

/-- What a fault of the arguments says. -/
def UsageFault.message : UsageFault → String
  | .missingCode => "Missing inline code after -c/--command option."
  | .emptyCode => "Empty code supplied to command option."
  | .unknownOption token => "Unknown option `" ++ token ++ "`."
  | .notFound token => "File `" ++ token ++ "` not found."
  | .wrongSuffix token => "Expected `" ++ sourceSuffix ++ "` source file, got `" ++ token ++ "`."
  | .badDefinition definition => "Expected NAME=VALUE, got `" ++ definition ++ "`."
  | .unopened path obstacle => "'" ++ path ++ "': " ++ obstacle.reason
  | .helpValue => "Option '--help' does not take a value."

/-- Why the arguments are not carried out. -/
inductive Refusal where
  /-- The arguments are wrong. -/
  | usage (fault : UsageFault)
  /-- A file cannot be looked up. -/
  | disk (fault : DiskFault)
  deriving Repr, DecidableEq

/-! ## Options -/

/-- Whether a token is the letter `v` repeated behind a dash. -/
def isVerboseRun (token : String) : Bool :=
  match token.toList with
  | '-' :: letters => !letters.isEmpty && letters.all (· == 'v')
  | _ => false

/-- How a definition in one token begins. -/
def defineMark : String := "--define="

/-- Whether a token is an option of the runner on its own. -/
def isFlag (token : String) : Bool :=
  token == "--ignore" || token == "--stats" || token == "--plain" || token == "-i" || token == "-p"
    || token == "--verbose" || Text.begins defineMark token || isVerboseRun token

/-- Whether a token announces a definition in the next one. -/
def announcesDefinition (token : String) : Bool :=
  token == "-D" || token == "--define"

/-- Splits the arguments into the options of the runner and the rest, both in order. A token that
announces a definition takes the next one with it, whatever it is. -/
def splitOptions : List String → List String × List String
  | [] => ([], [])
  | [token] => if isFlag token then ([token], []) else ([], [token])
  | token :: next :: rest =>
    if announcesDefinition token then
      let (options, others) := splitOptions rest
      (token :: next :: options, others)
    else
      let (options, others) := splitOptions (next :: rest)
      if isFlag token then (token :: options, others) else (options, token :: others)

/-- The name and the value of a definition. -/
def definition? (definition : String) : Option (String × String) :=
  let characters := definition.toList
  let name := Text.trim (String.ofList (characters.takeWhile (· != '=')))
  let value := (characters.dropWhile (· != '=')).drop 1
  if characters.contains '=' && !name.isEmpty then some (name, String.ofList value) else none

/-- Makes the definitions in a session. -/
def define (session : Session) : List String → Except Refusal Session
  | [] => .ok session
  | definition :: rest =>
    match definition? definition with
    | none => .error (.usage (.badDefinition definition))
    | some (name, value) => define (session.define name (Given.ofText value)).session rest

/-! ## Tasks -/

/-- One thing to carry out. -/
inductive Task where
  /-- A source file. -/
  | file (path : String)
  /-- Inline code. -/
  | code (text : String)
  /-- An interactive session. -/
  | prompt
  deriving Repr, DecidableEq

/-- The code in a token that gives it behind an equals sign, if it is such a token. -/
def inlineCode? (token : String) : Option String :=
  if Text.begins "-c=" token || Text.begins "--command=" token then
    some (String.ofList ((token.toList.dropWhile (· != '=')).drop 1))
  else none

/-- The task of a token that names a file. -/
def fileTask (disk : Disk) (token : String) : Except Refusal Task :=
  match disk.lookUp (Disk.tidy token) with
  | .error fault => .error (.disk fault)
  | .ok none => .error (.usage (.notFound token))
  | .ok (some _) =>
    if Disk.suffix token = sourceSuffix then .ok (.file (Disk.tidy token))
    else .error (.usage (.wrongSuffix token))

/-- The task of a token that stands on its own. -/
def task (disk : Disk) (token : String) : Except Refusal Task :=
  match inlineCode? token with
  | some code => if code.isEmpty then .error (.usage .emptyCode) else .ok (.code code)
  | none =>
    if token = "-r" ∨ token = "--repl" then .ok .prompt
    else if Text.begins "-" token then .error (.usage (.unknownOption token))
    else fileTask disk token

/-- Whether a token announces inline code in the next one. -/
def announcesCode (token : String) : Bool :=
  token == "-c" || token == "--command"

/-- The tasks that tokens ask for. -/
def tasks (disk : Disk) : List String → Except Refusal (List Task)
  | [] => .ok []
  | token :: rest =>
    if token = "--" then tasks disk rest
    else if announcesCode token then
      match rest with
      | [] => .error (.usage .missingCode)
      | code :: rest => do
        let others ← tasks disk rest
        .ok (.code code :: others)
    else do
      let first ← task disk token
      let others ← tasks disk rest
      .ok (first :: others)

/-! ## Commands -/

/-- What the process is asked to do. -/
inductive Command where
  /-- Carry out one file as a whole. -/
  | file (path : String)
  /-- Carry out the input as a whole. -/
  | input
  /-- Hold an interactive session. -/
  | prompt
  /-- Carry out the tasks of some tokens. -/
  | tokens (tokens : List String)
  deriving Repr, DecidableEq

/-- Whether a token asks for inline code or an interactive session. -/
def asksForTask (token : String) : Bool :=
  token == "-c" || token == "-r" || Text.begins "--command" token

/-- The path of the file that the arguments without options ask to carry out as a whole, if there
is nothing else that they ask for. -/
def wholeFile? (disk : Disk) (rest : List String) : Except DiskFault (Option String) :=
  match rest.filter fun token => !Text.begins "-" token with
  | [path] =>
    if rest.any asksForTask then .ok none
    else
      match disk.lookUp (Disk.tidy path) with
      | .ok (some (.file _)) => .ok (some path)
      | .ok _ => .ok none
      | .error fault => .error fault
  | _ => .ok none

/-- The command that the arguments without options ask for. -/
def dispatch (disk : Disk) (isTerminal : Bool) (rest : List String) : Except DiskFault Command :=
  if rest.isEmpty then .ok (if isTerminal then .prompt else .input)
  else if rest = ["-"] then .ok .input
  else if rest = ["--repl"] then .ok .prompt
  else
    match wholeFile? disk rest with
    | .ok (some path) => .ok (.file path)
    | .ok none => .ok (.tokens rest)
    | .error fault => .error fault

end Scriptlet.CommandLine
