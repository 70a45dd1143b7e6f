import Scriptlet.Proofs.Runs
import Scriptlet.Proofs.Spelling

/-! # How programs fail

A run of a whole comes to runs of its parts, and if it fails, it is one of them that failed by
itself, with everything inside it done. On its way out the fault passes through the nodes around:
whoever knows the failing node first writes it down, and everything further out leaves it as it is.

* `Expr.Reaches` and `Stmt.Leads`: a run of the whole comes to a run of the part.
* `Expr.Fails` and `Stmt.Fails`: a node or a statement fails by itself.
* `Expr.fails_of_eval`: the fault of an expression is that of the innermost node that failed.
* `Stmt.Fails.innermost`: a statement that fails by itself is the innermost one. -/

namespace Scriptlet

/-! ## How computations stop -/

namespace Run

variable {α β : Type} {run : Run α} {machine machine' : Machine} {halt : Halt} {fault : Fault}

/-- Two computations in turn stop because the first does, or because the second does behind it. -/
theorem error_of_bind {next : α → Run β} (h : (run >>= next) machine = .error halt machine') :
    run machine = .error halt machine' ∨ ∃ result between,
      run machine = .ok result between ∧ next result between = .error halt machine' := by
  cases hrun : run machine with
  | ok result between =>
    rw [bind_of_ok hrun] at h
    exact .inr ⟨result, between, rfl, h⟩
  | error halt' between =>
    rw [bind_of_error hrun] at h
    cases h
    exact .inl rfl

/-- A computation whose stops are reported in another way stopped by itself. -/
theorem error_of_adaptExcept {report : Halt → Halt}
    (h : EStateM.adaptExcept report run machine = .error halt machine') :
    ∃ inner, run machine = .error inner machine' ∧ report inner = halt := by
  unfold EStateM.adaptExcept at h
  cases hrun : run machine with
  | ok result between =>
    rw [hrun] at h
    cases h
  | error inner between =>
    rw [hrun] at h
    cases h
    exact ⟨inner, rfl, rfl⟩

/-- A fault that blames a node was a fault before. -/
theorem failed_of_locate {node : Node}
    (h : EStateM.adaptExcept (Halt.locate node) run machine = .error (.failed fault) machine') :
    ∃ inner, run machine = .error (.failed inner) machine' ∧ inner.locate node = fault := by
  obtain ⟨inner, hrun, hreport⟩ := error_of_adaptExcept h
  cases inner <;> cases hreport
  exact ⟨_, hrun, rfl⟩

/-- A fault that is settled on a statement was a fault before. -/
theorem failed_of_settle {stmt : Stmt}
    (h : EStateM.adaptExcept (Halt.settle stmt) run machine = .error (.failed fault) machine') :
    ∃ inner, run machine = .error (.failed inner) machine' ∧ inner.settle stmt = fault := by
  obtain ⟨inner, hrun, hreport⟩ := error_of_adaptExcept h
  cases inner <;> cases hreport
  exact ⟨_, hrun, rfl⟩

/-- An answer fails for its cause, and blames nothing yet. -/
theorem failed_of_ofExcept {answer : Except Cause α}
    (h : ofExcept answer machine = .error (.failed fault) machine') :
    ∃ cause, answer = .error cause ∧ fault = ⟨cause, none, none⟩ := by
  cases answer with
  | ok result => cases h
  | error cause =>
    cases h
    exact ⟨cause, rfl, rfl⟩

/-- A computation that stops one level deeper stops there for the same reason. -/
theorem error_of_nested (h : nested run machine = .error halt machine') :
    ∃ between, run { machine with depth := machine.depth + 1 } = .error halt between := by
  unfold nested at h
  split at h
  · cases h
  · cases h
    exact ⟨_, ‹_›⟩

/-- An operation on values fails because they were rejected, with nothing else known. -/
theorem failed_of_operation {answer : Except Cause Yield}
    (h : (ofExcept answer >>= settle) machine = .error (.failed fault) machine') :
    ∃ cause, answer = .error cause ∧ fault = ⟨cause, none, none⟩ := by
  obtain hanswer | ⟨yield, between, -, hsettle⟩ := error_of_bind h
  · exact failed_of_ofExcept hanswer
  · cases hsettle

end Run

open Run

/-- A known node stays. -/
theorem Fault.locate_of_isSome {fault : Fault} (h : fault.node.isSome = true) (node : Node) :
    fault.locate node = fault := by
  rw [locate, if_pos h]

/-- A known position stays. -/
theorem Fault.settle_of_isSome {fault : Fault} (h : fault.place.isSome = true) (stmt : Stmt) :
    fault.settle stmt = fault := by
  obtain ⟨place, hplace⟩ := Option.isSome_iff_exists.1 h
  rw [settle, hplace, Option.some_or, ← hplace]

/-! ## How expressions fail -/

namespace Expr

/-- Evaluating an expression comes to evaluating one of its nodes. -/
inductive Reaches : Expr → Machine → Expr → Machine → Prop where
  /-- The expression itself. -/
  | here {expr : Expr} {machine : Machine} : Reaches expr machine expr machine
  /-- Inside the operand of an operator in front. -/
  | unary {op : Operator} {operand node : Expr} {place : Option Position}
      {machine machine' : Machine} (hoperand : Reaches operand machine node machine') :
      Reaches (.unary op operand place) machine node machine'
  /-- Inside the operand whose kind is asked for. -/
  | typeOf {operand node : Expr} {place : Option Position} {machine machine' : Machine}
      (hoperand : Reaches operand machine node machine') :
      Reaches (.typeOf operand place) machine node machine'
  /-- Inside the left operand, which is evaluated first. -/
  | left {left right node : Expr} {op : Operator} {place : Option Position}
      {machine machine' : Machine} (hop : op.isAssignment = false)
      (hleft : Reaches left machine node machine') :
      Reaches (.binary left op right place) machine node machine'
  /-- Inside the right operand, once the left one has a value. -/
  | right {left right node : Expr} {op : Operator} {place : Option Position} {value : Value}
      {machine between machine' : Machine} (hop : op.isAssignment = false)
      (hleft : left.eval machine = .ok value between)
      (hright : Reaches right between node machine') :
      Reaches (.binary left op right place) machine node machine'
  /-- Inside the right side of an assignment to a name. -/
  | assigned {spelling : String} {right node : Expr} {op : Operator}
      {place place' : Option Position} {machine machine' : Machine} (hop : op.isAssignment = true)
      (hright : Reaches right machine node machine') :
      Reaches (.binary (.name spelling place) op right place') machine node machine'

/-- A node fails by itself: its operands have values which its operator rejects, or it assigns to
something that is no name. The fault names the node, or the target that was rejected. -/
inductive Fails : Expr → Machine → Fault → Prop where
  /-- An operator in front rejects its operand. -/
  | unary {op : Operator} {operand : Expr} {place : Option Position} {value : Value} {cause : Cause}
      {machine machine' : Machine} (hoperand : operand.eval machine = .ok value machine')
      (hcause : op.unary value = .error cause) :
      Fails (.unary op operand place) machine
        ⟨cause, some (.expression (.unary op operand place)), place⟩
  /-- An operator in the middle rejects its operands. -/
  | binary {left right : Expr} {op : Operator} {place : Option Position}
      {leftValue rightValue : Value} {cause : Cause} {machine between machine' : Machine}
      (hop : op.isAssignment = false) (hleft : left.eval machine = .ok leftValue between)
      (hright : right.eval between = .ok rightValue machine')
      (hcause : op.binary leftValue rightValue = .error cause) :
      Fails (.binary left op right place) machine
        ⟨cause, some (.expression (.binary left op right place)), place⟩
  /-- The operator that a compound assignment applies rejects what is bound and what is added. -/
  | compound {spelling : String} {right : Expr} {op applied : Operator}
      {place place' : Option Position} {current value : Value} {cause : Cause}
      {machine machine' : Machine} (hop : op.compound? = some applied)
      (hcurrent : Run.load spelling machine = .ok current machine)
      (hright : right.eval machine = .ok value machine')
      (hcause : applied.binary current value = .error cause) :
      Fails (.binary (.name spelling place) op right place') machine
        ⟨cause, some (.expression (.binary (.name spelling place) op right place')), place'⟩
  /-- The target of an assignment is no name. -/
  | target {left right : Expr} {op : Operator} {place : Option Position} {machine : Machine}
      (hop : op.isAssignment = true) (hleft : left.isNoTarget = true) :
      Fails (.binary left op right place) machine
        ⟨.target op, some (.expression left), left.place?⟩

variable {expr node : Expr} {machine machine' : Machine} {fault : Fault} {literal : Nat → Prop}

/-- A node that fails by itself is blamed. -/
theorem Fails.node_isSome (h : node.Fails machine fault) : fault.node.isSome = true := by
  cases h <;> rfl

/-- Around the node that failed, nothing is written over. -/
theorem Fails.locate (h : node.Fails machine fault) (outer : Node) : fault.locate outer = fault :=
  Fault.locate_of_isSome h.node_isSome outer

/-- Applying an operator fails in its left operand, in its right operand or by itself. -/
theorem failed_of_applied {op : Operator} {left right : Run Value}
    (h : applied op left right machine = .error (.failed fault) machine') :
    left machine = .error (.failed fault) machine' ∨
      ∃ leftValue between, left machine = .ok leftValue between ∧
        (right between = .error (.failed fault) machine' ∨
          ∃ rightValue after cause, right between = .ok rightValue after ∧
            op.binary leftValue rightValue = .error cause ∧ fault = ⟨cause, none, none⟩) := by
  obtain hleft | ⟨leftValue, between, hleft, h⟩ := error_of_bind h
  · exact .inl hleft
  refine .inr ⟨leftValue, between, hleft, ?_⟩
  -- past the left side, the right one fails or the operator does
  obtain hright | ⟨rightValue, after, hright, h⟩ := error_of_bind h
  · exact .inl hright
  · obtain ⟨cause, hcause, rfl⟩ := failed_of_operation h
    exact .inr ⟨rightValue, after, cause, hright, hcause, rfl⟩

/-- **The fault of an expression is that of the innermost node that failed.** By induction over
evaluation: a fault from inside has its node already, so what is around leaves it alone. -/
theorem fails_of_eval (hspelled : expr.IsSpelled literal)
    (h : expr.eval machine = .error (.failed fault) machine') :
    ∃ node at', expr.Reaches machine node at' ∧ node.Fails at' fault := by
  induction expr using eval_induction generalizing machine fault with
  | name spelling place =>
    rw [Expr.eval] at h
    obtain ⟨inner, hload, -⟩ := failed_of_locate h
    cases hload
  | number value place =>
    rw [Expr.eval] at h
    obtain ⟨inner, hvalue, -⟩ := failed_of_locate h
    cases hvalue
  | string value place =>
    rw [Expr.eval] at h
    obtain ⟨inner, hvalue, -⟩ := failed_of_locate h
    cases hvalue
  | unary op operand place ih =>
    rw [Expr.eval] at h
    obtain ⟨inner, hrun, rfl⟩ := failed_of_locate h
    -- the operand failed, or it has a value which the operator rejects
    obtain hinside | ⟨value, between, hoperand, hanswer⟩ := error_of_bind hrun
    · obtain ⟨node, at', hreaches, hfails⟩ := ih hspelled.2 hinside
      rw [hfails.locate]
      exact ⟨node, at', .unary hreaches, hfails⟩
    · obtain ⟨cause, hcause, rfl⟩ := failed_of_operation hanswer
      exact ⟨_, machine, .here, .unary hoperand hcause⟩
  | typeOf operand place ih =>
    rw [Expr.eval] at h
    obtain ⟨inner, hrun, rfl⟩ := failed_of_locate h
    obtain hinside | ⟨value, between, -, hsettle⟩ := error_of_bind hrun
    · obtain ⟨node, at', hreaches, hfails⟩ := ih hspelled hinside
      rw [hfails.locate]
      exact ⟨node, at', .typeOf hreaches, hfails⟩
    · cases hsettle
  | assign spelling place op right place' hop ih =>
    rw [eval_assign hop] at h
    obtain ⟨inner, hrun, rfl⟩ := failed_of_locate h
    obtain hvalue | ⟨value, between, -, hstore⟩ := error_of_bind hrun
    · -- whatever the operator, a fault of the right side is that of the assignment
      have hinside {inner : Fault} (hright : right.eval machine = .error (.failed inner) machine') :
          ∃ node at', Reaches (.binary (.name spelling place) op right place') machine node at' ∧
            node.Fails at' (inner.locate
              (.expression (.binary (.name spelling place) op right place'))) := by
        obtain ⟨node, at', hreaches, hfails⟩ := ih hspelled.2.2 hright
        rw [hfails.locate]
        exact ⟨node, at', .assigned hop hreaches, hfails⟩
      rw [assigned.eq_def] at hvalue
      cases hcompound : op.compound? with
      | none =>
        rw [hcompound] at hvalue
        exact hinside hvalue
      | some applied =>
        rw [hcompound] at hvalue
        obtain hload | ⟨current, between, hload, hright |
            ⟨value, after, cause, hright, hcause, rfl⟩⟩ := failed_of_applied hvalue
        · cases hload
        · -- what is bound is read without touching the machine
          cases hload
          exact hinside hright
        · cases hload
          exact ⟨_, machine, .here, .compound hcompound rfl hright hcause⟩
    · cases hstore
  | noTarget left op right place hop hleft =>
    rw [eval_noTarget hop hleft] at h
    cases h
    exact ⟨_, _, .here, .target hop hleft⟩
  | binary left op right place hop ihleft ihright =>
    rw [eval_binary hop] at h
    obtain ⟨inner, hrun, rfl⟩ := failed_of_locate h
    obtain hinside | ⟨leftValue, between, hleft, hinside |
        ⟨rightValue, after, cause, hright, hcause, rfl⟩⟩ := failed_of_applied hrun
    · obtain ⟨node, at', hreaches, hfails⟩ := ihleft hspelled.2.1 hinside
      rw [hfails.locate]
      exact ⟨node, at', .left hop hreaches, hfails⟩
    · obtain ⟨node, at', hreaches, hfails⟩ := ihright hspelled.2.2 hinside
      rw [hfails.locate]
      exact ⟨node, at', .right hop hleft hreaches, hfails⟩
    · exact ⟨_, machine, .here, .binary hop hleft hright hcause⟩
  -- no text spells the trees that are left
  | gap op right place hop => exact hspelled.2.1.elim
  | trailing operand op place => exact hspelled.elim
  | misplaced form rendering place => exact hspelled.elim
  | absent => exact hspelled.elim

/-- An expression that fails within a limit fails without one. -/
theorem failed_of_evalWithin {limit : Nat}
    (h : expr.evalWithin limit machine = .error (.failed fault) machine') :
    expr.eval machine = .error (.failed fault) machine' := by
  unfold evalWithin at h
  split at h
  · cases h
  · exact h

/-- A node that is reached in an expression is spelled as the expression is. -/
theorem Reaches.isSpelled (h : expr.Reaches machine node machine')
    (hspelled : expr.IsSpelled literal) : node.IsSpelled literal := by
  induction h with
  | here => exact hspelled
  | unary _ ih => exact ih hspelled.2
  | typeOf _ ih => exact ih hspelled
  | left _ _ ih => exact ih hspelled.2.1
  | right _ _ _ ih => exact ih hspelled.2.2
  | assigned _ _ ih => exact ih hspelled.2.2

end Expr

/-! ## How statements fail -/

namespace Stmt

variable {settings : Settings} {machine machine' : Machine} {fault : Fault}

/-- The expression that a statement evaluates. -/
def subject? : Stmt → Option Expr
  | .expression expr _ | .print expr _ | .ret expr _ => some expr
  | .cond condition _ _ | .condElse condition _ _ _ => some condition
  | .block .. | .misplaced _ => none

/-- The condition of a conditional statement. -/
def condition? : Stmt → Option Expr
  | .cond condition _ _ | .condElse condition _ _ _ => some condition
  | _ => none

/-- Executing a statement comes to executing it or a statement inside it. -/
inductive Leads (settings : Settings) : Stmt → Machine → Stmt → Machine → Prop where
  /-- The statement itself. -/
  | here {stmt : Stmt} {machine : Machine} : Leads settings stmt machine stmt machine
  /-- Inside a statement of a block, once those before it are done. -/
  | block {before rest : List Stmt} {first stmt : Stmt} {place : Option Position}
      {result : Option Value} {machine between start machine' : Machine}
      (hbefore : executeAll settings before { machine with depth := machine.depth + 1 } =
        .ok result between)
      (henter : first.enter settings between = .ok () start)
      (hfirst : Leads settings first start stmt machine') :
      Leads settings (.block (before ++ first :: rest) place) machine stmt machine'
  /-- Inside the body of a conditional statement whose condition holds. -/
  | body {condition : Expr} {body stmt : Stmt} {place : Option Position}
      {machine between machine' : Machine}
      (hholds : holds settings condition machine = .ok true between)
      (hbody : Leads settings body between stmt machine') :
      Leads settings (.cond condition body place) machine stmt machine'
  /-- Inside the first of two bodies, if the condition holds. -/
  | chosen {condition : Expr} {body other stmt : Stmt} {place : Option Position}
      {machine between machine' : Machine}
      (hholds : holds settings condition machine = .ok true between)
      (hbody : Leads settings body between stmt machine') :
      Leads settings (.condElse condition body other place) machine stmt machine'
  /-- Inside the second of two bodies, if the condition does not hold. -/
  | other {condition : Expr} {body other stmt : Stmt} {place : Option Position}
      {machine between machine' : Machine}
      (hholds : holds settings condition machine = .ok false between)
      (hother : Leads settings other between stmt machine') :
      Leads settings (.condElse condition body other place) machine stmt machine'

/-- Executing statements in a row comes to executing one of them, or a statement inside it. -/
def RowLeads (settings : Settings) (row : List Stmt) (machine : Machine) (stmt : Stmt)
    (machine' : Machine) : Prop :=
  ∃ before first rest result between start, row = before ++ first :: rest ∧
    executeAll settings before machine = .ok result between ∧
    first.enter settings between = .ok () start ∧ first.Leads settings start stmt machine'

/-- A statement fails by itself, and not by a statement inside it. -/
inductive Fails (settings : Settings) : Stmt → Machine → Fault → Prop where
  /-- A node of its expression fails. -/
  | expression {stmt : Stmt} {subject node : Expr} {fault : Fault}
      {machine reached machine' : Machine} (hsubject : stmt.subject? = some subject)
      (hstops : subject.evalWithin settings.limit machine = .error (.failed fault) machine')
      (hreaches : subject.Reaches machine node reached) (hfails : node.Fails reached fault) :
      Fails settings stmt machine fault
  /-- Its condition has a value that is not a boolean. -/
  | condition {stmt : Stmt} {condition : Expr} {value : Value} {machine machine' : Machine}
      (hcondition : stmt.condition? = some condition)
      (hvalue : condition.evalWithin settings.limit machine = .ok value machine')
      (hkind : value.kind ≠ .boolean) :
      Fails settings stmt machine
        ⟨.condition value.kind, some (.expression condition), condition.place?⟩
  /-- It ends the program with a value that is no status. -/
  | status {expr : Expr} {place : Option Position} {value : Value} {cause : Cause}
      {machine machine' : Machine}
      (hvalue : expr.evalWithin settings.limit machine = .ok value machine')
      (hcause : value.exitStatus = .error cause) :
      Fails settings (.ret expr place) machine ⟨cause, none, place⟩

/-- Tracing is no reason to fail. -/
theorem not_failed_of_enter (stmt : Stmt) :
    stmt.enter settings machine ≠ .error (.failed fault) machine' := by
  intro h
  -- neither tracing nor counting evaluates anything, so there is no fault to come from them
  obtain htrace | ⟨_, between, -, hcount⟩ := error_of_bind h
  · obtain hget | ⟨machine₀, between, -, h⟩ := error_of_bind htrace
    · cases hget
    · split at h
      · obtain hrecord | ⟨_, between, -, h⟩ := error_of_bind h
        · cases hrecord
        · split at h
          · cases h
          · cases hrender : stmt.render? with
            | some text =>
              rw [hrender] at h
              cases h
            | none =>
              rw [hrender] at h
              cases h
      · cases h
  · cases hcount

/-- What a row leads to one level deeper, its block leads to. -/
theorem RowLeads.block {body : List Stmt} {stmt : Stmt} (place : Option Position)
    (h : RowLeads settings body { machine with depth := machine.depth + 1 } stmt machine') :
    (Stmt.block body place).Leads settings machine stmt machine' := by
  obtain ⟨before, first, rest, result, between, start, rfl, hbefore, henter, hfirst⟩ := h
  exact .block hbefore henter hfirst

/-- What the first statement leads to, the row leads to. -/
theorem RowLeads.first {first stmt : Stmt} {start : Machine} (rest : List Stmt)
    (henter : first.enter settings machine = .ok () start)
    (h : first.Leads settings start stmt machine') :
    RowLeads settings (first :: rest) machine stmt machine' := by
  refine ⟨[], first, rest, none, machine, start, rfl, ?_, henter, h⟩
  rw [executeAll]
  rfl

/-- What the statements behind the first lead to, the row leads to. -/
theorem RowLeads.later {first stmt : Stmt} {rest : List Stmt} {result : Option Value}
    {start between : Machine} (henter : first.enter settings machine = .ok () start)
    (hfirst : first.execute settings start = .ok result between)
    (h : RowLeads settings rest between stmt machine') :
    RowLeads settings (first :: rest) machine stmt machine' := by
  obtain ⟨before, next, rest, last, between', start', rfl, hbefore, henter', hnext⟩ := h
  refine ⟨first :: before, next, rest, last.or result, between', start', rfl, ?_, henter', hnext⟩
  have hsettled : EStateM.adaptExcept (Halt.settle first) (first.execute settings) start =
      .ok result between := by
    rw [EStateM.adaptExcept, hfirst]
  rw [executeAll_cons, bind_of_ok henter, bind_of_ok hsettled, bind_of_ok hbefore]
  rfl

/-- Statements in a row fail in the first of them, which fixes the position, or behind it. -/
theorem failed_of_executeAll_cons {first : Stmt} {rest : List Stmt}
    (h : executeAll settings (first :: rest) machine = .error (.failed fault) machine') :
    ∃ start, first.enter settings machine = .ok () start ∧
      ((∃ inner, first.execute settings start = .error (.failed inner) machine' ∧
          inner.settle first = fault) ∨
        ∃ result between, first.execute settings start = .ok result between ∧
          executeAll settings rest between = .error (.failed fault) machine') := by
  rw [executeAll_cons] at h
  obtain henter | ⟨_, start, henter, h⟩ := error_of_bind h
  · exact absurd henter (not_failed_of_enter first)
  refine ⟨start, henter, ?_⟩
  -- only what is thrown by the first statement itself passes through it
  obtain hfirst | ⟨result, between, hfirst, h⟩ := error_of_bind h
  · exact .inl (failed_of_settle hfirst)
  refine .inr ⟨result, between, ?_, ?_⟩
  · unfold EStateM.adaptExcept at hfirst
    split at hfirst
    · cases hfirst
    · cases hfirst
      assumption
  · obtain hrest | ⟨last, after, -, hreturn⟩ := error_of_bind h
    · exact hrest
    · cases hreturn

/-- A condition fails because its expression does, or because its value is no boolean. -/
theorem failed_of_holds {condition : Expr}
    (h : holds settings condition machine = .error (.failed fault) machine') :
    condition.evalWithin settings.limit machine = .error (.failed fault) machine' ∨
      ∃ value, condition.evalWithin settings.limit machine = .ok value machine' ∧
        value.kind ≠ .boolean ∧
        fault = ⟨.condition value.kind, some (.expression condition), condition.place?⟩ := by
  obtain hvalue | ⟨value, between, hvalue, h⟩ := error_of_bind h
  · exact .inl hvalue
  -- a condition that is no boolean is blamed itself
  cases value with
  | boolean truth => cases h
  | number number =>
    cases h
    exact .inr ⟨_, hvalue, nofun, rfl⟩
  | string text =>
    cases h
    exact .inr ⟨_, hvalue, nofun, rfl⟩

/-- A condition that was decided has a boolean as its value. -/
theorem value_of_holds {condition : Expr} {truth : Bool}
    (h : holds settings condition machine = .ok truth machine') :
    condition.evalWithin settings.limit machine = .ok (.boolean truth) machine' := by
  cases hvalue : condition.evalWithin settings.limit machine with
  | error halt between =>
    rw [holds, bind_of_error hvalue] at h
    cases h
  | ok value between =>
    rw [holds, bind_of_ok hvalue] at h
    cases value with
    | boolean truth =>
      cases h
      rfl
    | number number => cases h
    | string text => cases h

/-- When a condition fails or has a value that is not a boolean, no body is chosen. -/
theorem Fails.not_holds {stmt : Stmt} {condition : Expr} {truth : Bool}
    (h : stmt.Fails settings machine fault) (hsubject : stmt.subject? = some condition)
    (hcondition : stmt.condition? = some condition) :
    holds settings condition machine ≠ .ok truth machine' := by
  intro hholds
  -- the condition has one outcome on one machine, and a boolean is not the one that failed
  have htruth := value_of_holds hholds
  cases h with
  | expression hsubject' hstops =>
    rw [hsubject] at hsubject'
    cases hsubject'
    rw [htruth] at hstops
    cases hstops
  | condition hcondition' hvalue hkind =>
    rw [hcondition] at hcondition'
    cases hcondition'
    rw [htruth] at hvalue
    cases hvalue
    exact hkind rfl
  | status => cases hcondition

/-- A statement that fails by itself is the innermost one that is executed. -/
theorem Fails.innermost {stmt inner : Stmt} (h : stmt.Fails settings machine fault)
    (hleads : stmt.Leads settings machine inner machine') : inner = stmt ∧ machine' = machine := by
  cases hleads with
  | here => exact ⟨rfl, rfl⟩
  | block =>
    cases h with
    | expression hsubject => cases hsubject
    | condition hcondition => cases hcondition
  | body hholds => exact absurd hholds (h.not_holds rfl rfl)
  | chosen hholds => exact absurd hholds (h.not_holds rfl rfl)
  | other hholds => exact absurd hholds (h.not_holds rfl rfl)

end Stmt

end Scriptlet
