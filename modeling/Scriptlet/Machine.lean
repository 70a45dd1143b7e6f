import Scriptlet.Bindings
import Scriptlet.Program
import Scriptlet.Trace
import Scriptlet.Value.Guarded

/-! # The machine

A program runs on a machine that holds the bindings, the next free string handle, counters, and a
journal of everything that happened. A run that stops early keeps what it did before. Operands are
always evaluated, from left to right; names that were never bound read as zero. -/

namespace Scriptlet

/-- Something that happens in a run. -/
inductive Event where
  /-- A line was printed. -/
  | printed (text : String)
  /-- A trace line was begun with the number of its statement. -/
  | numbered (steps : Nat)
  /-- A trace line was completed. -/
  | traced (line : String)
  /-- A name was bound. -/
  | stored (name : String)
  deriving Repr, DecidableEq

namespace Event

/-- The text that a program prints by an event. -/
def outputText : Event → String
  | .printed text => text ++ "\n"
  | _ => ""

/-- The text that tracing writes by an event. -/
def traceText : Event → String
  | .numbered steps => Trace.stepMark steps
  | .traced line => line
  | _ => ""

end Event

/-- The state of a run. -/
structure Machine where
  /-- The bound names. -/
  bindings : Bindings Value := .empty
  /-- The next free string handle. -/
  nextHandle : Nat := 0
  /-- How many statements were started, which numbers the trace lines. -/
  steps : Nat := 0
  /-- How many statements were added to the statistics. -/
  counted : Nat := 0
  /-- How many blocks are open. -/
  depth : Nat := 0
  /-- What happened, in order. -/
  journal : List Event := []
  deriving Repr

/-- How a run is to be carried out. -/
structure Settings where
  /-- How much is traced: nothing at zero, outer statements at one, all statements at two. -/
  verbosity : Nat := 0
  /-- How deeply a tree may be nested. -/
  limit : Nat := Program.nestingLimit
  deriving Repr

/-- A computation on a machine, which may stop early. -/
abbrev Run : Type → Type := EStateM Halt Machine

namespace Run

/-- Stops with a cause whose node and position are still to be found. -/
def fail {α : Type} (cause : Cause) : Run α :=
  throw (.failed { cause })

/-- Goes on with a result, or stops with its cause. -/
def ofExcept {α : Type} : Except Cause α → Run α
  | .ok result => pure result
  | .error cause => fail cause

/-- Goes on with what a guarded operation makes of its operands, or stops with its complaint or with
the breakdown of a primitive. -/
def perform {α : Type} : Except Breakdown (Except Cause α) → Run α
  | .ok answer => ofExcept answer
  | .error breakdown => throw (.broken breakdown)

/-- Writes an event into the journal. -/
def record (event : Event) : Run Unit :=
  modify fun machine => { machine with journal := machine.journal ++ [event] }

/-- The value that an operation yields; a new string takes the next free handle. -/
def settle (yield : Yield) : Run Value :=
  modifyGet fun machine =>
    (yield.toValue machine.nextHandle, { machine with nextHandle := machine.nextHandle + 1 })

/-- The value of a name. -/
def load (name : String) : Run Value := do
  return ((← get).bindings.get? name).getD (.number 0)

/-- Binds a name. -/
def store (name : String) (value : Value) : Run Unit := do
  modify fun machine => { machine with bindings := machine.bindings.insert name value }
  record (.stored name)

/-- Runs inside a block: one block less is open afterwards, whatever happens. -/
def nested {α : Type} (run : Run α) : Run α := fun machine =>
  match run { machine with depth := machine.depth + 1 } with
  | .ok result after => .ok result { after with depth := after.depth - 1 }
  | .error halt after => .error halt { after with depth := after.depth - 1 }

end Run

namespace Expr

/-- Evaluates an expression. A fault is fixed to the innermost node that it passes through. -/
def eval (expr : Expr) : Run Value :=
  EStateM.adaptExcept (Halt.locate (.expression expr)) <|
    match expr with
    | .name spelling _ => Run.load spelling
    | .number value _ => pure (.number value)
    | .string value _ => pure (.string value)
    | .unary op operand _ => do
      let value ← operand.eval
      Run.settle (← Run.ofExcept (op.unary value))
    | .typeOf operand _ => do
      let value ← operand.eval
      Run.settle (.newString value.kind.name)
    | .binary left op right _ =>
      if op.isAssignment then
        match left with
        | .name spelling _ => do
          let value ← match op.compound? with
            | none => right.eval
            | some applied => do
              -- the name is read before the right side, which may bind it anew
              let current ← Run.load spelling
              let value ← right.eval
              Run.settle (← Run.perform (applied.guarded current value))
          Run.store spelling value
          return value
        | .absent => throw .absent
        -- the right side of what is no target is never evaluated
        | target =>
          throw (.failed ⟨.target op, some (.expression target), target.place?⟩)
      else do
        let leftValue ← left.eval
        let rightValue ← right.eval
        Run.settle (← Run.perform (op.guarded leftValue rightValue))
    | .trailing _ op _ => Run.fail (.trailing op)
    | .misplaced form _ _ => Run.fail (.evaluation form)
    | .absent => throw .absent

/-- Evaluates an expression that is not nested too deeply. -/
def evalWithin (limit : Nat) (expr : Expr) : Run Value :=
  if limit < expr.depth then throw .tooDeep else expr.eval

end Expr

namespace Stmt

/-- Whether a statement inside some number of blocks is traced. -/
def isTraced (verbosity depth : Nat) : Bool :=
  verbosity == 2 || (verbosity == 1 && depth == 0)

/-- Writes the trace line of a statement that is about to be executed. -/
def trace (settings : Settings) (stmt : Stmt) : Run Unit := do
  let machine ← get
  if isTraced settings.verbosity machine.depth then
    Run.record (.numbered machine.steps)
    if settings.limit < stmt.depth then throw .tooDeep
    else
      match stmt.render? with
      | some text =>
        let items := machine.bindings.entries.map fun entry => (entry.1, some entry.2)
        Run.record (.traced (Trace.line Trace.fieldWidth items text))
      | none => throw .gap
  else pure ()

/-- Counts a statement that is about to be executed, once for the trace and once for the
statistics. -/
def count : Run Unit := do
  modify fun machine => { machine with steps := machine.steps + 1 }
  modify fun machine => { machine with counted := machine.counted + 1 }

/-- The truth of a condition. -/
def holds (settings : Settings) (condition : Expr) : Run Bool := do
  match ← condition.evalWithin settings.limit with
  | .boolean value => return value
  | value =>
    throw (.failed ⟨.condition value.kind, some (.expression condition), condition.place?⟩)

mutual

/-- Executes a statement; only an expression on its own has a result. -/
def execute (settings : Settings) : Stmt → Run (Option Value)
  | .expression expr _ => return some (← expr.evalWithin settings.limit)
  | .print expr _ => do
    let value ← expr.evalWithin settings.limit
    Run.record (.printed value.printed)
    return none
  | .ret expr _ => do
    let value ← expr.evalWithin settings.limit
    let status ← Run.perform value.guardedStatus
    -- a value that is no status is a fault of this statement, and does not end the program
    throw (.ended status value)
  | .block body _ => do
    let _ ← Run.nested (executeAll settings body)
    return none
  | .cond condition body _ => do
    if ← holds settings condition then
      let _ ← body.execute settings
    return none
  | .condElse condition body other _ => do
    if ← holds settings condition then
      let _ ← body.execute settings
    else
      let _ ← other.execute settings
    return none
  | .misplaced expr =>
    if expr.isAbsent then throw .absent
    else throw (.failed ⟨.execution expr.form, some (.statement (.misplaced expr)), expr.place?⟩)

/-- Executes statements in order. The result is that of the last expression on its own. -/
def executeAll (settings : Settings) : List Stmt → Run (Option Value)
  | [] => return none
  | first :: rest => do
    first.trace settings
    count
    let result ← EStateM.adaptExcept (Halt.settle first) (first.execute settings)
    let last ← executeAll settings rest
    return last.or result

end

end Stmt

end Scriptlet
