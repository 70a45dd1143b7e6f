import Mathlib
import Scriptlet.Machine
import Scriptlet.Proofs.Guards

/-! # Assertions about runs

What holds of a machine before a computation, and what then holds of its result and of the machine
it leaves, or of the reason for which it stops and of the machine at that point. There is one rule
for each way in which computations are put together, and one equation for each way in which an
expression is evaluated; later proofs cite these and leave the definitions closed. -/

namespace Scriptlet

/-- What was printed up to now. -/
def Machine.printed (machine : Machine) : String :=
  String.join (machine.journal.map Event.outputText)

namespace Run

variable {α β : Type}

/-- Behind a computation that returns, the next one goes on with its result. -/
theorem bind_of_ok {run : Run α} {next : α → Run β} {result : α} {machine machine' : Machine}
    (h : run machine = .ok result machine') : (run >>= next) machine = next result machine' := by
  show EStateM.bind run next machine = _
  rw [EStateM.bind, h]

/-- Behind a computation that stops, nothing is done. -/
theorem bind_of_error {run : Run α} {next : α → Run β} {halt : Halt} {machine machine' : Machine}
    (h : run machine = .error halt machine') : (run >>= next) machine = .error halt machine' := by
  show EStateM.bind run next machine = _
  rw [EStateM.bind, h]

/-- From a machine that satisfies `before`, a computation returns with `after` or stops with
`stop`. -/
def Triple (before : Machine → Prop) (run : Run α) (after : α → Machine → Prop)
    (stop : Halt → Machine → Prop) : Prop :=
  ∀ machine, before machine →
    match run machine with
    | .ok result machine' => after result machine'
    | .error halt machine' => stop halt machine'

variable {before before' : Machine → Prop} {after after' : α → Machine → Prop}
  {stop stop' : Halt → Machine → Prop} {run : Run α}

/-- To answer leaves the machine as it was. -/
theorem triple_pure {result : α} (h : ∀ machine, before machine → after result machine) :
    Triple before (pure result) after stop :=
  h

/-- To stop leaves the machine as it was. -/
theorem triple_throw {halt : Halt} (h : ∀ machine, before machine → stop halt machine) :
    Triple before (throw halt) after stop :=
  h

/-- To change a machine returns with the change. -/
theorem triple_modify {change : Machine → Machine} {after : Unit → Machine → Prop}
    (h : ∀ machine, before machine → after () (change machine)) :
    Triple before (modify change) after stop :=
  h

/-- To look at a machine returns it, and leaves it as it was. -/
theorem triple_get {after : Machine → Machine → Prop}
    (h : ∀ machine, before machine → after machine machine) : Triple before get after stop :=
  h

/-- One computation behind another. -/
theorem Triple.bind {next : α → Run β} {last : β → Machine → Prop}
    (hrun : Triple before run after stop)
    (hnext : ∀ result, Triple (after result) (next result) last stop) :
    Triple before (run >>= next) last stop := by
  intro machine hbefore
  have hfirst := hrun machine hbefore
  show match (EStateM.bind run next) machine with
    | .ok result machine' => last result machine'
    | .error halt machine' => stop halt machine'
  unfold EStateM.bind
  -- a stop of the first computation is one of both
  cases hfound : run machine with
  | ok result machine' =>
    rw [hfound] at hfirst
    exact hnext result machine' hfirst
  | error halt machine' =>
    rw [hfound] at hfirst
    exact hfirst

/-- More may be assumed and less concluded. -/
theorem Triple.weaken (h : Triple before run after stop)
    (hbefore : ∀ machine, before' machine → before machine)
    (hafter : ∀ result machine, after result machine → after' result machine)
    (hstop : ∀ halt machine, stop halt machine → stop' halt machine) :
    Triple before' run after' stop' := by
  intro machine hmachine
  have hrun := h machine (hbefore machine hmachine)
  cases hfound : run machine with
  | ok result machine' =>
    rw [hfound] at hrun
    exact hafter result machine' hrun
  | error halt machine' =>
    rw [hfound] at hrun
    exact hstop halt machine' hrun

/-- A computation whose stops are reported in another way. -/
theorem Triple.adaptExcept {report : Halt → Halt}
    (h : Triple before run after fun halt machine => stop (report halt) machine) :
    Triple before (EStateM.adaptExcept report run) after stop := by
  intro machine hbefore
  have hrun := h machine hbefore
  unfold EStateM.adaptExcept
  cases hfound : run machine with
  | ok result machine' =>
    rw [hfound] at hrun
    exact hrun
  | error halt machine' =>
    rw [hfound] at hrun
    exact hrun

/-- A computation inside a block, for assertions that the number of open blocks does not touch. -/
theorem Triple.nested (h : Triple before run after stop)
    (hbefore : ∀ machine depth, before machine → before { machine with depth })
    (hafter : ∀ result machine depth, after result machine → after result { machine with depth })
    (hstop : ∀ halt machine depth, stop halt machine → stop halt { machine with depth }) :
    Triple before (nested run) after stop := by
  intro machine hmachine
  -- both changes of the depth keep what is asked of the machines
  have hrun := h { machine with depth := machine.depth + 1 } (hbefore _ _ hmachine)
  unfold Run.nested
  cases hfound : run { machine with depth := machine.depth + 1 } with
  | ok result machine' =>
    rw [hfound] at hrun
    exact hafter _ _ _ hrun
  | error halt machine' =>
    rw [hfound] at hrun
    exact hstop _ _ _ hrun

/-- A result is passed on, or its cause stops the run. -/
theorem triple_ofExcept {answer : Except Cause α}
    (hok : ∀ result machine, answer = .ok result → before machine → after result machine)
    (herror : ∀ cause machine, answer = .error cause → before machine →
      stop (.failed ⟨cause, none, none⟩) machine) :
    Triple before (ofExcept answer) after stop := by
  intro machine hbefore
  cases answer with
  | ok result => exact hok result machine rfl hbefore
  | error cause => exact herror cause machine rfl hbefore

/-! ## What comes of a run -/

/-- The machine that a computation leaves, however it ends. -/
def final (run : Run α) (machine : Machine) : Machine :=
  match run machine with
  | .ok _ machine' | .error _ machine' => machine'

/-- The result of a computation, or the reason for which it stops. -/
def outcome (run : Run α) (machine : Machine) : Except Halt α :=
  match run machine with
  | .ok result _ => .ok result
  | .error halt _ => .error halt

/-- What a computation keeps holds of the machine that it leaves. -/
theorem Triple.final {kept : Machine → Prop} (h : Triple kept run (fun _ => kept) fun _ => kept)
    {machine : Machine} (hmachine : kept machine) : kept (run.final machine) := by
  have hrun := h machine hmachine
  unfold Run.final
  cases hfound : run machine with
  | ok result machine' =>
    rw [hfound] at hrun
    exact hrun
  | error halt machine' =>
    rw [hfound] at hrun
    exact hrun

section Behind

variable {run : Run α} {next : α → Machine → List β} {machine machine' : Machine}

/-- What is seen of a computation behind another: nothing if the first one stops. -/
def behind (run : Run α) (next : α → Machine → List β) (machine : Machine) : List β :=
  match run machine with
  | .ok result machine' => next result machine'
  | .error _ _ => []

/-- Behind a computation that returns, the next one is seen. -/
theorem behind_of_ok {result : α} (h : run machine = .ok result machine') :
    run.behind next machine = next result machine' := by
  rw [behind, h]

/-- Behind a computation that stops, nothing is seen. -/
theorem behind_of_error {halt : Halt} (h : run machine = .error halt machine') :
    run.behind next machine = [] := by
  rw [behind, h]

/-- What is seen behind a computation is seen of the next one, on the machine that was left. -/
theorem mem_behind {found : β} (h : found ∈ run.behind next machine) :
    ∃ result machine', run machine = .ok result machine' ∧ found ∈ next result machine' := by
  cases hrun : run machine with
  | ok result machine' =>
    rw [behind_of_ok hrun] at h
    exact ⟨result, machine', rfl, h⟩
  | error halt machine' =>
    rw [behind_of_error hrun] at h
    cases h

/-- How a stop is reported does not matter to what is seen behind it. -/
theorem behind_adaptExcept (report : Halt → Halt) :
    Run.behind (EStateM.adaptExcept report run) next machine = run.behind next machine := by
  unfold behind EStateM.adaptExcept
  cases run machine <;> rfl

end Behind

/-! ## Two runs side by side -/

variable {γ δ : Type}

/-- From machines that `before` relates, two computations both return, with results and machines that
`after` relates, or both stop, with reasons and machines that `stop` relates. -/
def Couple (before : Machine → Machine → Prop) (run : Run α) (run' : Run β)
    (after : α → β → Machine → Machine → Prop) (stop : Halt → Halt → Machine → Machine → Prop) :
    Prop :=
  ∀ machine machine', before machine machine' →
    match run machine, run' machine' with
    | .ok result left, .ok result' right => after result result' left right
    | .error halt left, .error halt' right => stop halt halt' left right
    | _, _ => False

section Couple

variable {before : Machine → Machine → Prop} {after : α → β → Machine → Machine → Prop}
  {stop : Halt → Halt → Machine → Machine → Prop} {run : Run α} {run' : Run β}

/-- Two computations side by side return together or stop together. -/
theorem Couple.cases (h : Couple before run run' after stop) {machine machine' : Machine}
    (hbefore : before machine machine') :
    (∃ result result' left right, run machine = .ok result left ∧
      run' machine' = .ok result' right ∧ after result result' left right) ∨
    ∃ halt halt' left right, run machine = .error halt left ∧
      run' machine' = .error halt' right ∧ stop halt halt' left right := by
  have hboth := h machine machine' hbefore
  cases hrun : run machine <;> cases hrun' : run' machine' <;> rw [hrun, hrun'] at hboth
  · exact .inl ⟨_, _, _, _, rfl, rfl, hboth⟩
  · exact hboth.elim
  · exact hboth.elim
  · exact .inr ⟨_, _, _, _, rfl, rfl, hboth⟩

/-- Two answers leave both machines as they were. -/
theorem couple_pure {result : α} {result' : β}
    (h : ∀ machine machine', before machine machine' → after result result' machine machine') :
    Couple before (pure result) (pure result') after stop :=
  h

/-- Two stops leave both machines as they were. -/
theorem couple_throw {halt halt' : Halt}
    (h : ∀ machine machine', before machine machine' → stop halt halt' machine machine') :
    Couple before (throw halt) (throw halt') after stop :=
  h

/-- Computations that belong together may be continued by others that do. -/
theorem Couple.bind {next : α → Run γ} {next' : β → Run δ}
    {last : γ → δ → Machine → Machine → Prop} (hrun : Couple before run run' after stop)
    (hnext : ∀ result result', Couple (after result result') (next result) (next' result') last stop) :
    Couple before (run >>= next) (run' >>= next') last stop := by
  intro machine machine' hbefore
  have hfirst := hrun machine machine' hbefore
  show match (EStateM.bind run next) machine, (EStateM.bind run' next') machine' with
    | .ok result left, .ok result' right => last result result' left right
    | .error halt left, .error halt' right => stop halt halt' left right
    | _, _ => False
  unfold EStateM.bind
  -- both first computations return, or both stop
  cases hfound : run machine with
  | ok result left =>
    cases hfound' : run' machine' with
    | ok result' right =>
      rw [hfound, hfound'] at hfirst
      exact hnext result result' left right hfirst
    | error halt' right =>
      rw [hfound, hfound'] at hfirst
      exact hfirst.elim
  | error halt left =>
    cases hfound' : run' machine' with
    | ok result' right =>
      rw [hfound, hfound'] at hfirst
      exact hfirst.elim
    | error halt' right =>
      rw [hfound, hfound'] at hfirst
      exact hfirst

/-- Computations that belong together still do when their stops are reported in related ways. -/
theorem Couple.adaptExcept {report report' : Halt → Halt}
    {stop' : Halt → Halt → Machine → Machine → Prop} (h : Couple before run run' after stop')
    (hstop : ∀ halt halt' machine machine', stop' halt halt' machine machine' →
      stop (report halt) (report' halt') machine machine') :
    Couple before (EStateM.adaptExcept report run) (EStateM.adaptExcept report' run') after stop := by
  intro machine machine' hbefore
  have hrun := h machine machine' hbefore
  unfold EStateM.adaptExcept
  cases hfound : run machine <;> cases hfound' : run' machine' <;> rw [hfound, hfound'] at hrun
  · exact hrun
  · exact hrun.elim
  · exact hrun.elim
  · exact hstop _ _ _ _ hrun

/-- Two computations inside blocks, for relations that do not change when a block is opened or
closed on both machines. -/
theorem Couple.nested (h : Couple before run run' after stop)
    (hbefore : ∀ machine machine', before machine machine' →
      before { machine with depth := machine.depth + 1 }
        { machine' with depth := machine'.depth + 1 })
    (hafter : ∀ result result' machine machine', after result result' machine machine' →
      after result result' { machine with depth := machine.depth - 1 }
        { machine' with depth := machine'.depth - 1 })
    (hstop : ∀ halt halt' machine machine', stop halt halt' machine machine' →
      stop halt halt' { machine with depth := machine.depth - 1 }
        { machine' with depth := machine'.depth - 1 }) :
    Couple before (nested run) (nested run') after stop := by
  intro machine machine' hmachine
  -- one block more is open on both machines while the computations run
  have hrun := h _ _ (hbefore _ _ hmachine)
  unfold Run.nested
  cases hfound : run { machine with depth := machine.depth + 1 } <;>
    cases hfound' : run' { machine' with depth := machine'.depth + 1 } <;>
    rw [hfound, hfound'] at hrun
  · exact hafter _ _ _ _ hrun
  · exact hrun.elim
  · exact hrun.elim
  · exact hstop _ _ _ _ hrun

end Couple

end Run

/-! ## How expressions are evaluated -/

/-- An operator stops a run by its complaint only, since no primitive breaks down. -/
theorem Run.perform_guarded (op : Operator) (left right : Value) :
    Run.perform (op.guarded left right) = Run.ofExcept (op.binary left right) := by
  rw [op.guarded_eq, Run.perform]

/-- The status of a value is found without a breakdown. -/
theorem Run.perform_guardedStatus (value : Value) :
    Run.perform value.guardedStatus = Run.ofExcept value.exitStatus := by
  rw [value.guardedStatus_eq, Run.perform]

namespace Expr

/-- The value that an assignment stores, from the computation of its right side. -/
def assigned (op : Operator) (spelling : String) (right : Run Value) : Run Value :=
  match op.compound? with
  | none => right
  | some applied => do
    let current ← Run.load spelling
    let value ← right
    Run.settle (← Run.ofExcept (applied.binary current value))

/-- What an operator makes of two computed operands. -/
def applied (op : Operator) (left right : Run Value) : Run Value := do
  let leftValue ← left
  let rightValue ← right
  Run.settle (← Run.ofExcept (op.binary leftValue rightValue))

/-- Whether an expression is neither a name nor missing, so that it cannot be assigned to. -/
def isNoTarget : Expr → Bool
  | .name .. | .absent => false
  | _ => true

/-- An assignment to a name computes the value to store, stores it and yields it. -/
theorem eval_assign {op : Operator} (h : op.isAssignment = true) (spelling : String)
    (place place' : Option Position) (right : Expr) :
    (Expr.binary (.name spelling place) op right place').eval =
      EStateM.adaptExcept (Halt.locate (.expression (.binary (.name spelling place) op right place')))
        (do
          let value ← assigned op spelling right.eval
          Run.store spelling value
          return value) := by
  rw [Expr.eval, assigned]
  simp only [h, if_true]
  -- a compound operator is applied first, and its primitives do not break down
  cases op.compound? with
  | none => rfl
  | some applied => simp only [Run.perform_guarded, bind_assoc]

/-- What is no target is refused before its right side is evaluated. -/
theorem eval_noTarget {op : Operator} (h : op.isAssignment = true) {left : Expr}
    (hleft : left.isNoTarget = true) (right : Expr) (place : Option Position) :
    (Expr.binary left op right place).eval =
      throw (.failed ⟨.target op, some (.expression left), left.place?⟩) := by
  rw [Expr.eval.eq_def]
  simp only [h, if_true]
  cases left with
  | name => cases hleft
  | absent => cases hleft
  | _ => rfl

/-- A target that is missing stops the run. -/
theorem eval_gap {op : Operator} (h : op.isAssignment = true) (right : Expr)
    (place : Option Position) : (Expr.binary .absent op right place).eval = throw .absent := by
  rw [Expr.eval.eq_def]
  simp only [h, if_true]
  rfl

/-- An operator that does not assign is applied to both operands. -/
theorem eval_binary {op : Operator} (h : op.isAssignment = false) (left right : Expr)
    (place : Option Position) :
    (Expr.binary left op right place).eval =
      EStateM.adaptExcept (Halt.locate (.expression (.binary left op right place)))
        (applied op left.eval right.eval) := by
  rw [Expr.eval.eq_def]
  simp only [h, Bool.false_eq_true, if_false, Run.perform_guarded]
  rfl

/-- Induction over expressions as they are evaluated: an assignment does not evaluate its left
side. -/
theorem eval_induction {motive : Expr → Prop}
    (name : ∀ spelling place, motive (.name spelling place))
    (number : ∀ value place, motive (.number value place))
    (string : ∀ value place, motive (.string value place))
    (unary : ∀ op operand place, motive operand → motive (.unary op operand place))
    (typeOf : ∀ operand place, motive operand → motive (.typeOf operand place))
    (assign : ∀ spelling place op right place', op.isAssignment = true → motive right →
      motive (.binary (.name spelling place) op right place'))
    (noTarget : ∀ left op right place, op.isAssignment = true → left.isNoTarget = true →
      motive (.binary left op right place))
    (binary : ∀ left op right place, op.isAssignment = false → motive left → motive right →
      motive (.binary left op right place))
    (gap : ∀ op right place, op.isAssignment = true → motive (.binary .absent op right place))
    (trailing : ∀ operand op place, motive (.trailing operand op place))
    (misplaced : ∀ form rendering place, motive (.misplaced form rendering place))
    (absent : motive .absent) (expr : Expr) : motive expr := by
  induction expr with
  | name spelling place => exact name spelling place
  | number value place => exact number value place
  | string value place => exact string value place
  | unary op operand place ih => exact unary op operand place ih
  | binary left op right place ihleft ihright =>
    cases hop : op.isAssignment with
    | false => exact binary left op right place hop ihleft ihright
    | true =>
      -- the left side is looked at, but not evaluated, so its hypothesis is not needed
      cases left with
      | name spelling place' => exact assign spelling place' op right place hop ihright
      | absent => exact gap op right place hop
      | _ => exact noTarget _ op right place hop rfl
  | trailing operand op place _ => exact trailing operand op place
  | typeOf operand place ih => exact typeOf operand place ih
  | misplaced form rendering place => exact misplaced form rendering place
  | absent => exact absent

end Expr

/-! ## How statements are started -/

namespace Stmt

/-- What is done before a statement is executed: it is traced and counted. -/
def enter (settings : Settings) (stmt : Stmt) : Run Unit := do
  stmt.trace settings
  count

/-- A statement that returns ends the program with the status of its value. -/
theorem execute_ret {settings : Settings} (expr : Expr) (place : Option Position) :
    execute settings (.ret expr place) = (do
      let value ← expr.evalWithin settings.limit
      let status ← Run.ofExcept value.exitStatus
      throw (.ended status value)) := by
  simp only [execute, Run.perform_guardedStatus]

/-- The first of the statements is entered and executed; then come the others. -/
theorem executeAll_cons {settings : Settings} (first : Stmt) (rest : List Stmt) :
    executeAll settings (first :: rest) = (do
      first.enter settings
      let result ← EStateM.adaptExcept (Halt.settle first) (first.execute settings)
      let last ← executeAll settings rest
      return last.or result) := by
  rw [executeAll, enter]
  simp only [bind_assoc]

end Stmt

/-! ## What programs assign to -/

/-- The name that an expression is, so that it can be assigned to. -/
def Expr.target? : Expr → Option String
  | .name spelling _ => some spelling
  | _ => none

/-- The names that the assignments in an expression assign to. -/
def Expr.targets : Expr → List String
  | .unary _ operand _ | .trailing operand _ _ | .typeOf operand _ => operand.targets
  | .binary left op right _ =>
    (if op.isAssignment then left.target?.toList else []) ++ left.targets ++ right.targets
  | .name .. | .number .. | .string .. | .misplaced .. | .absent => []

namespace Stmt

mutual

/-- The names that the assignments in a statement assign to. -/
def targets : Stmt → List String
  | .expression expr _ | .print expr _ | .ret expr _ | .misplaced expr => expr.targets
  | .block body _ => targetsAll body
  | .cond condition body _ => condition.targets ++ body.targets
  | .condElse condition body other _ => condition.targets ++ body.targets ++ other.targets

/-- The names that the assignments in a row of statements assign to. -/
def targetsAll : List Stmt → List String
  | [] => []
  | first :: rest => first.targets ++ targetsAll rest

end

end Stmt

/-! ## Properties of all runs -/

namespace Run

/-- A property of computations that holds of the single steps by which expressions are evaluated, as
long as they bind names of some sort only, and passes on to everything that is put together from such
steps. -/
structure ClosedEval (binds : String → Prop) (property : ∀ {α : Type}, Run α → Prop) : Prop where
  pure : ∀ {α : Type} (result : α), property (Pure.pure result : Run α)
  throw : ∀ {α : Type} (halt : Halt), property (MonadExcept.throw halt : Run α)
  bind : ∀ {α β : Type} {run : Run α} {next : α → Run β}, property run →
    (∀ result, property (next result)) → property (run >>= next)
  adaptExcept : ∀ {α : Type} {run : Run α} (report : Halt → Halt), property run →
    property (EStateM.adaptExcept report run)
  load : ∀ name, property (Run.load name)
  settle : ∀ yield, property (Run.settle yield)
  store : ∀ name value, binds name → property (Run.store name value)

/-- The same for all steps of a run with some settings. -/
structure ClosedRun (settings : Settings) (binds : String → Prop)
    (property : ∀ {α : Type}, Run α → Prop) : Prop extends ClosedEval binds property where
  nested : ∀ {α : Type} {run : Run α}, property run → property (Run.nested run)
  print : ∀ text, property (Run.record (.printed text))
  trace : ∀ stmt : Stmt, property (stmt.trace settings)
  count : property Stmt.count

/-- The same whatever is written into the journal, so that the settings do not matter. -/
structure Closed (binds : String → Prop) (property : ∀ {α : Type}, Run α → Prop) : Prop
    extends ClosedEval binds property where
  nested : ∀ {α : Type} {run : Run α}, property run → property (Run.nested run)
  get : property (MonadState.get : Run Machine)
  record : ∀ event, property (Run.record event)
  count : property Stmt.count

section Closed

variable {binds : String → Prop} {property : ∀ {α : Type}, Run α → Prop}

namespace ClosedEval

variable (h : ClosedEval binds property)
include h

/-- What is closed holds of an answer that is known, or of its cause. -/
theorem ofExcept {α : Type} (answer : Except Cause α) : property (Run.ofExcept answer) := by
  cases answer with
  | ok result => exact h.pure result
  | error cause => exact h.throw _

/-- What is closed holds of an operator if it does of its operands. -/
theorem applied (op : Operator) {left right : Run Value} (hleft : property left)
    (hright : property right) : property (Expr.applied op left right) := by
  refine h.bind hleft fun leftValue => h.bind hright fun rightValue => ?_
  exact h.bind (h.ofExcept _) h.settle

/-- What is closed holds of an assignment if it does of the right side. -/
theorem assigned (op : Operator) (spelling : String) {right : Run Value} (hright : property right) :
    property (Expr.assigned op spelling right) := by
  unfold Expr.assigned
  split
  · exact hright
  · exact h.applied _ (h.load spelling) hright

/-- What is closed holds of every expression whose targets may be bound. -/
theorem eval {expr : Expr} (hexpr : ∀ name ∈ expr.targets, binds name) : property expr.eval := by
  induction expr using Expr.eval_induction with
  | name spelling place =>
    rw [Expr.eval]
    exact h.adaptExcept _ (h.load spelling)
  | number value place =>
    rw [Expr.eval]
    exact h.adaptExcept _ (h.pure _)
  | string value place =>
    rw [Expr.eval]
    exact h.adaptExcept _ (h.pure _)
  | unary op operand place ih =>
    rw [Expr.eval]
    exact h.adaptExcept _ (h.bind (ih hexpr) fun value => h.bind (h.ofExcept _) h.settle)
  | typeOf operand place ih =>
    rw [Expr.eval]
    exact h.adaptExcept _ (h.bind (ih hexpr) fun value => h.settle _)
  -- only here something is bound, and the name is a target
  | assign spelling place op right place' hop ih =>
    rw [Expr.targets, if_pos hop] at hexpr
    have hright := ih fun name hname => hexpr name (List.mem_append_right _ hname)
    rw [Expr.eval_assign hop]
    refine h.adaptExcept _ (h.bind (h.assigned op spelling hright) fun value => ?_)
    exact h.bind (h.store spelling value (hexpr spelling List.mem_cons_self)) fun _ => h.pure value
  | noTarget left op right place hop hleft =>
    rw [Expr.eval_noTarget hop hleft]
    exact h.throw _
  | binary left op right place hop ihleft ihright =>
    have hleft := ihleft fun name hname =>
      hexpr name (List.mem_append_left _ (List.mem_append_right _ hname))
    have hright := ihright fun name hname => hexpr name (List.mem_append_right _ hname)
    rw [Expr.eval_binary hop]
    exact h.adaptExcept _ (h.applied op hleft hright)
  | gap op right place hop =>
    rw [Expr.eval_gap hop]
    exact h.throw _
  | trailing operand op place =>
    rw [Expr.eval]
    exact h.adaptExcept _ (h.throw _)
  | misplaced form rendering place =>
    rw [Expr.eval]
    exact h.adaptExcept _ (h.throw _)
  | absent =>
    rw [Expr.eval]
    exact h.adaptExcept _ (h.throw _)

/-- So it does within a limit. -/
theorem evalWithin (limit : Nat) {expr : Expr} (hexpr : ∀ name ∈ expr.targets, binds name) :
    property (expr.evalWithin limit) := by
  unfold Expr.evalWithin
  split
  · exact h.throw _
  · exact h.eval hexpr

/-- What is closed holds of every condition whose targets may be bound. -/
theorem holds (settings : Settings) {condition : Expr}
    (hcondition : ∀ name ∈ condition.targets, binds name) :
    property (Stmt.holds settings condition) := by
  refine h.bind (h.evalWithin settings.limit hcondition) fun value => ?_
  split
  · exact h.pure _
  · exact h.throw _

end ClosedEval

namespace ClosedRun

variable {settings : Settings} (h : ClosedRun settings binds property)
include h

mutual

/-- What is closed holds of every statement whose targets may be bound. -/
theorem execute : ∀ (stmt : Stmt), (∀ name ∈ stmt.targets, binds name) →
    property (stmt.execute settings)
  | .expression expr _, hstmt => by
    rw [Stmt.execute]
    exact h.bind (h.evalWithin settings.limit hstmt) fun _ => h.pure _
  | .print expr _, hstmt => by
    rw [Stmt.execute]
    refine h.bind (h.evalWithin settings.limit hstmt) fun value => ?_
    exact h.bind (h.print _) fun _ => h.pure _
  | .ret expr _, hstmt => by
    rw [Stmt.execute_ret]
    refine h.bind (h.evalWithin settings.limit hstmt) fun value => ?_
    exact h.bind (h.ofExcept _) fun _ => h.throw _
  | .block body _, hstmt => by
    rw [Stmt.execute]
    exact h.bind (h.nested (executeAll body hstmt)) fun _ => h.pure _
  -- the targets of a condition and of its body are all targets of the statement
  | .cond condition body _, hstmt => by
    rw [Stmt.targets, List.forall_mem_append] at hstmt
    rw [Stmt.execute]
    refine h.bind (h.holds settings hstmt.1) fun truth => ?_
    cases truth with
    | true => exact h.bind (execute body hstmt.2) fun _ => h.pure _
    | false => exact h.pure _
  | .condElse condition body other _, hstmt => by
    rw [Stmt.targets, List.forall_mem_append, List.forall_mem_append] at hstmt
    rw [Stmt.execute]
    refine h.bind (h.holds settings hstmt.1.1) fun truth => ?_
    cases truth with
    | true => exact h.bind (execute body hstmt.1.2) fun _ => h.pure _
    | false => exact h.bind (execute other hstmt.2) fun _ => h.pure _
  | .misplaced expr, _ => by
    rw [Stmt.execute]
    split
    · exact h.throw _
    · exact h.throw _

/-- **What holds of single steps holds of every run of statements**, if their assignments are to
names of the given sort. -/
theorem executeAll : ∀ (row : List Stmt),
    (∀ name ∈ Stmt.targetsAll row, binds name) → property (Stmt.executeAll settings row)
  | [], _ => by
    rw [Stmt.executeAll]
    exact h.pure _
  | first :: rest, hrow => by
    rw [Stmt.targetsAll, List.forall_mem_append] at hrow
    rw [Stmt.executeAll]
    refine h.bind (h.trace first) fun _ => h.bind h.count fun _ => ?_
    refine h.bind (h.adaptExcept _ (execute first hrow.1)) fun result => ?_
    exact h.bind (executeAll rest hrow.2) fun last => h.pure _

end

end ClosedRun

namespace Closed

variable (h : Closed binds property)
include h

/-- What is closed under every event holds of tracing, whatever is traced. -/
theorem trace (settings : Settings) (stmt : Stmt) : property (stmt.trace settings) := by
  refine h.bind h.get fun machine => ?_
  split
  · refine h.bind (h.record _) fun _ => ?_
    split
    · exact h.throw _
    · split
      · exact h.record _
      · exact h.throw _
  · exact h.pure _

/-- What is closed under every event is closed for all settings. -/
theorem closedRun (settings : Settings) : ClosedRun settings binds property where
  toClosedEval := h.toClosedEval
  nested := h.nested
  print _ := h.record _
  trace := h.trace settings
  count := h.count

/-- What is closed holds of statements in a row whose targets may be bound. -/
theorem executeAll (settings : Settings) (row : List Stmt)
    (hrow : ∀ name ∈ Stmt.targetsAll row, binds name) : property (Stmt.executeAll settings row) :=
  (h.closedRun settings).executeAll row hrow

end Closed

end Closed

/-- A computation leaves as many blocks open as there were, however it ends. -/
def KeepsDepth {α : Type} (run : Run α) : Prop :=
  ∀ depth, Triple (fun machine => machine.depth = depth) run (fun _ machine => machine.depth = depth)
    fun _ machine => machine.depth = depth

/-- Every step of a run leaves as many blocks open as there were. -/
theorem closed_keepsDepth : Closed (fun _ => True) KeepsDepth where
  pure _ _ := triple_pure fun _ => id
  throw _ _ := triple_throw fun _ => id
  bind hrun hnext depth := (hrun depth).bind fun result => hnext result depth
  adaptExcept _ h depth := Triple.adaptExcept (h depth)
  nested {_ run} hrun := by
    rintro depth machine rfl
    -- the block that is closed is the one that was opened
    have hinside := hrun (machine.depth + 1) { machine with depth := machine.depth + 1 } rfl
    unfold Run.nested
    cases hfound : run { machine with depth := machine.depth + 1 } with
    | ok result machine' =>
      rw [hfound] at hinside
      exact congrArg (· - 1) hinside
    | error halt machine' =>
      rw [hfound] at hinside
      exact congrArg (· - 1) hinside
  get _ := triple_get fun _ => id
  load _ _ _ := id
  record _ _ := triple_modify fun _ => id
  settle _ _ _ := id
  store _ _ _ _ _ := id
  count _ := triple_modify fun _ => id

/-- A computation adds as many statements to the statistics as it starts, however it ends. -/
def KeepsCounts {α : Type} (run : Run α) : Prop :=
  ∀ steps counted, Triple (fun machine => machine.steps + counted = steps + machine.counted) run
    (fun _ machine => machine.steps + counted = steps + machine.counted)
    fun _ machine => machine.steps + counted = steps + machine.counted

/-- The two counters are moved by one place only, and there together. -/
theorem closed_keepsCounts : Closed (fun _ => True) KeepsCounts where
  pure _ _ _ := triple_pure fun _ => id
  throw _ _ _ := triple_throw fun _ => id
  bind hrun hnext steps counted :=
    (hrun steps counted).bind fun result => hnext result steps counted
  adaptExcept _ h steps counted := Triple.adaptExcept (h steps counted)
  nested h steps counted :=
    (h steps counted).nested (fun _ _ => id) (fun _ _ _ => id) fun _ _ _ => id
  get _ _ := triple_get fun _ => id
  load _ _ _ _ := id
  record _ _ _ := triple_modify fun _ => id
  settle _ _ _ _ := id
  store _ _ _ _ _ _ := id
  count steps counted machine hbalance := by
    -- both counters go up by one
    show machine.steps + 1 + counted = steps + (machine.counted + 1)
    omega

end Run

end Scriptlet
