import Scriptlet.Given
import Scriptlet.Machine

/-! # Sessions

A session keeps the bindings between the programs that are run in it. Every request replies with
its outcome, with what happened, and with the session as it is afterwards. -/

namespace Scriptlet

/-- Why a request to a session fails. -/
inductive Failure where
  /-- The text is no program. -/
  | rejected (rejection : Rejection)
  /-- The text is a program, but not a single expression. -/
  | notOneExpression (source : String)
  /-- The program stopped early. -/
  | halted (halt : Halt)
  /-- A value from outside cannot be bound. -/
  | unbound (fault : BindFault)
  deriving Repr

/-- What a session keeps. -/
structure Session where
  /-- The bound names. -/
  bindings : Bindings Value := .empty
  /-- The next free string handle. -/
  nextHandle : Nat := 0
  deriving Repr

/-- What a request comes to. -/
structure Reply (α : Type) where
  /-- The result, or why there is none. -/
  outcome : Except Failure α
  /-- The session afterwards. -/
  session : Session
  /-- What happened, in order. -/
  journal : List Event := []
  /-- How many statements were added to the statistics. -/
  steps : Nat := 0

namespace Reply

variable {α : Type}

/-- What the program printed. -/
def output (reply : Reply α) : String :=
  String.join (reply.journal.map Event.outputText)

/-- What tracing wrote. -/
def trace (reply : Reply α) : String :=
  String.join (reply.journal.map Event.traceText)

/-- The reply after a computation has run on a machine. -/
def ofRun : EStateM.Result Halt Machine α → Reply α
  | .ok result machine =>
    ⟨.ok result, ⟨machine.bindings, machine.nextHandle⟩, machine.journal, machine.counted⟩
  | .error halt machine =>
    ⟨.error (.halted halt), ⟨machine.bindings, machine.nextHandle⟩, machine.journal,
      machine.counted⟩

end Reply

namespace Session

/-- A session whose names are bound to values from outside. -/
def ofGiven (given : List (String × Given)) : Except BindFault Session := do
  let bindings ← Bindings.ofGiven 0 given
  .ok ⟨bindings, given.length⟩

/-- A machine that starts with what the session keeps. -/
def machine (session : Session) : Machine :=
  { bindings := session.bindings, nextHandle := session.nextHandle }

/-- The session after a text was read: the handles of its literals are taken. -/
def afterReading (session : Session) (source : String) : Session :=
  { session with nextHandle := session.nextHandle + source.length }

/-- Reads a program; nothing is run. -/
def parse (session : Session) (limit : Nat) (filename : Option String) (source : String) :
    Reply (List Stmt) :=
  let session' := session.afterReading source
  match Program.ofSource limit filename session.nextHandle source with
  | .ok program => { outcome := .ok program, session := session' }
  | .error rejection => { outcome := .error (.rejected rejection), session := session' }

/-- Runs a program; the result is that of its last expression on its own. -/
def execute (session : Session) (settings : Settings) (program : List Stmt) :
    Reply (Option Value) :=
  Reply.ofRun (Stmt.executeAll settings program session.machine)

/-- Reads a program and runs it. -/
def run (session : Session) (settings : Settings) (filename : Option String) (source : String) :
    Reply (Option Value) :=
  let read := session.parse settings.limit filename source
  match read.outcome with
  | .ok program => read.session.execute settings program
  | .error failure => { outcome := .error failure, session := read.session }

/-- Evaluates an expression. -/
def evaluate (session : Session) (limit : Nat) (expr : Expr) : Reply Value :=
  Reply.ofRun (expr.evalWithin limit session.machine)

/-- The name of a text that is read as an expression. -/
def expressionName : String := "<EXPR>"

/-- Reads a text that has to be a single expression, and evaluates it. -/
def evaluateSource (session : Session) (limit : Nat) (source : String) : Reply Value :=
  let read := session.parse limit (some expressionName) source
  match read.outcome with
  | .ok [.expression expr _] => read.session.evaluate limit expr
  | .ok _ => { outcome := .error (.notOneExpression source), session := read.session }
  | .error failure => { outcome := .error failure, session := read.session }

/-- Binds a name to a value from outside. -/
def define (session : Session) (name : String) (given : Given) : Reply Unit :=
  match given.toValue name session.nextHandle with
  | .ok value =>
    { outcome := .ok ()
      session := ⟨session.bindings.insert name value, session.nextHandle + 1⟩ }
  | .error fault => { outcome := .error (.unbound fault), session }

/-- The value of a name. -/
def lookup (session : Session) (name : String) : Option Value :=
  session.bindings.get? name

end Session

end Scriptlet
