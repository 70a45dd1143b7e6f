import Mathlib
import Scriptlet.Proofs.Handles

/-! # Programs do not go wrong

A program that was read from a text ends with a result, or ends itself with a status of 32 bits, or
fails on operands of the wrong kind or on an assignment to something that is not a name. The other
reasons for which a run could stop do not occur: they are about trees that no text spells, or about
primitives that break down, which the guards of the operators keep from happening. All along, every
string that is bound has a handle that was given out. -/

namespace Scriptlet

/-! ## How operations fail -/

namespace Operator

/-- An answer is a complaint of an operator about its operands, or no failure at all. -/
def Complains (op : Operator) (answer : Except Cause Yield) : Prop :=
  ∀ cause, answer = .error cause → ∃ wanted found, cause = .operands op wanted found

/-- An answer complains of nothing. -/
theorem complains_ok (op : Operator) (yield : Yield) : op.Complains (.ok yield) :=
  nofun

/-- A complaint names the operator, what it wants and what it found. -/
theorem complains_complain (op : Operator) (wanted : Kind) (operands : List Value) :
    op.Complains (op.complain wanted operands) := by
  rintro cause h
  cases h
  exact ⟨_, _, rfl⟩

/-- An operator on numbers complains of other operands. -/
theorem complains_onNumbers (op : Operator) (apply : Float → Float → Float) (left right : Value) :
    op.Complains (op.onNumbers apply left right) := by
  unfold onNumbers
  split
  · exact complains_ok op _
  · exact complains_complain op _ _

/-- An operator on booleans complains of other operands. -/
theorem complains_onBooleans (op : Operator) (apply : Bool → Bool → Bool) (left right : Value) :
    op.Complains (op.onBooleans apply left right) := by
  unfold onBooleans
  split
  · exact complains_ok op _
  · exact complains_complain op _ _

/-- An operator between two operands can only complain about their kinds, if it has a meaning there
and stores nothing. -/
theorem complains_binary {op : Operator} (hbinary : op.isBinary = true)
    (hassignment : op.isAssignment = false) (left right : Value) :
    op.Complains (op.binary left right) := by
  cases op with
  | plus =>
    rw [binary]
    unfold add
    split
    · exact complains_ok _ _
    · exact complains_onNumbers _ _ _ _
  | same =>
    rw [binary]
    unfold identical
    split
    · exact complains_ok _ _
    · exact complains_complain _ _ _
  | minus | times | divide | modulo | bitAnd | bitOr => exact complains_onNumbers _ _ _ _
  | logicalAnd | logicalOr => exact complains_onBooleans _ _ _ _
  | equal | differ | greater | greaterEqual | less | lessEqual => exact complains_ok _ _
  -- the others stand before one operand, or assign
  | logicalNot => cases hbinary
  | assign | addAssign | subAssign | mulAssign | divAssign | modAssign => cases hassignment

/-- An operator in front of an operand can only complain about its kind, if it has a meaning
there. -/
theorem complains_unary {op : Operator} (hunary : op.isUnary = true) (operand : Value) :
    op.Complains (op.unary operand) := by
  cases op with
  | plus | minus | logicalNot =>
    cases operand with
    | number value => exact complains_ok _ _
    | boolean value => exact complains_complain _ _ _
    | string value => exact complains_complain _ _ _
  | _ => cases hunary

/-- The operator that a compound assignment applies has a meaning between two operands. -/
theorem isBinary_of_compound {op applied : Operator} (h : op.compound? = some applied) :
    applied.isBinary = true ∧ applied.isAssignment = false := by
  cases op <;> cases h <;> decide

end Operator

/-- Every status has 32 bits. -/
theorem Value.exitStatus_bounds {value : Value} {status : Int} (h : value.exitStatus = .ok status) :
    Decimal.int32Min ≤ status ∧ status ≤ Decimal.int32Max := by
  cases value with
  | number number =>
    cases h
    exact Decimal.toInt32_bounds number
  | boolean truth =>
    cases h
    cases truth <;> decide
  | string text => cases h

/-! ## How runs stop -/

/-- The causes that a program read from a text can fail with. -/
def Cause.isExpected : Cause → Bool
  | .operands .. | .condition _ | .status _ | .target _ => true
  | .notUnary _ | .notBinary _ | .trailing _ | .evaluation _ | .execution _ => false

namespace Halt

/-- The ways in which the run of a tree of some depth, if a text can spell it, may stop early. -/
def IsExpected (limit depth : Nat) : Halt → Prop
  | .failed fault => fault.cause.isExpected = true
  | .ended status value => value.exitStatus = .ok status
  | .tooDeep => limit < depth
  | .broken _ | .gap | .absent => False

variable {limit depth : Nat} {halt : Halt}

/-- A part of a tree stops as the whole may stop. -/
theorem IsExpected.mono {depth' : Nat} (h : halt.IsExpected limit depth) (hdepth : depth ≤ depth') :
    halt.IsExpected limit depth' := by
  cases halt with
  | tooDeep => exact Nat.lt_of_lt_of_le h hdepth
  | failed | ended | broken | gap | absent => exact h

/-- A halt that is expected still is when a node is blamed. -/
theorem IsExpected.locate (h : halt.IsExpected limit depth) (node : Node) :
    (halt.locate node).IsExpected limit depth := by
  cases halt with
  | failed fault =>
    rw [Halt.locate, Fault.locate]
    split <;> exact h
  | ended | broken | tooDeep | gap | absent => exact h

/-- A halt that is expected still is when it is settled on a statement. -/
theorem IsExpected.settle (h : halt.IsExpected limit depth) (stmt : Stmt) :
    (halt.settle stmt).IsExpected limit depth := by
  cases halt with
  | failed fault => exact h
  | ended | broken | tooDeep | gap | absent => exact h

end Halt

namespace Run

variable {α β : Type} {limit depth : Nat}

/-- A computation stops early only in the ways that are expected. -/
def Expected (limit depth : Nat) (run : Run α) : Prop :=
  Triple (fun _ => True) run (fun _ _ => True) fun halt _ => halt.IsExpected limit depth

/-- To answer is expected. -/
theorem expected_pure (result : α) : Expected limit depth (pure result) :=
  triple_pure fun _ _ => trivial

/-- To stop is expected if the halt is. -/
theorem expected_throw {halt : Halt} (h : halt.IsExpected limit depth) :
    Expected limit depth (throw halt : Run α) :=
  triple_throw fun _ _ => h

/-- To change a machine is expected. -/
theorem expected_modify (change : Machine → Machine) : Expected limit depth (modify change) :=
  triple_modify fun _ _ => trivial

/-- To look at a machine is expected. -/
theorem expected_get : Expected limit depth get :=
  triple_get fun _ _ => trivial

/-- To note an event is expected. -/
theorem expected_record (event : Event) : Expected limit depth (record event) :=
  expected_modify _

/-- To settle what is yielded is expected. -/
theorem expected_settle (yield : Yield) : Expected limit depth (settle yield) :=
  fun _ _ => trivial

/-- Two computations in turn are expected if both are. -/
theorem Expected.bind {run : Run α} {next : α → Run β} (hrun : Expected limit depth run)
    (hnext : ∀ result, Expected limit depth (next result)) : Expected limit depth (run >>= next) :=
  Triple.bind hrun hnext

/-- To look a name up is expected. -/
theorem expected_load (name : String) : Expected limit depth (load name) :=
  expected_get.bind fun _ => expected_pure _

/-- To store a value is expected. -/
theorem expected_store (name : String) (value : Value) : Expected limit depth (store name value) :=
  (expected_modify _).bind fun _ => expected_record _

/-- What is expected of a tree is expected of a deeper one. -/
theorem Expected.mono {run : Run α} {depth' : Nat} (h : Expected limit depth run)
    (hdepth : depth ≤ depth') : Expected limit depth' run :=
  Triple.weaken h (fun _ => id) (fun _ _ => id) fun _ _ hhalt => hhalt.mono hdepth

/-- What is expected still is when a node is blamed. -/
theorem Expected.locate {run : Run α} (h : Expected limit depth run) (node : Node) :
    Expected limit depth (EStateM.adaptExcept (Halt.locate node) run) :=
  Triple.adaptExcept (Triple.weaken h (fun _ => id) (fun _ _ => id) fun _ _ hhalt =>
    hhalt.locate node)

/-- What is expected still is when its faults are settled on a statement. -/
theorem Expected.settle {run : Run α} (h : Expected limit depth run) (stmt : Stmt) :
    Expected limit depth (EStateM.adaptExcept (Halt.settle stmt) run) :=
  Triple.adaptExcept (Triple.weaken h (fun _ => id) (fun _ _ => id) fun _ _ hhalt =>
    hhalt.settle stmt)

/-- What is expected still is one level deeper. -/
theorem Expected.nested {run : Run α} (h : Expected limit depth run) :
    Expected limit depth (nested run) :=
  Triple.nested h (fun _ _ => id) (fun _ _ _ => id) fun _ _ _ => id

/-- An answer is expected if its cause is. -/
theorem expected_ofExcept {answer : Except Cause α}
    (h : ∀ cause, answer = .error cause → cause.isExpected = true) :
    Expected limit depth (ofExcept answer) :=
  triple_ofExcept (fun _ _ _ _ => trivial) fun cause _ hcause _ => h cause hcause

/-- An operation that can only complain about the kinds of its operands. -/
theorem expected_of_complains {op : Operator} {answer : Except Cause Yield}
    (h : op.Complains answer) : Expected limit depth (ofExcept answer) := by
  apply expected_ofExcept
  intro cause hcause
  obtain ⟨wanted, found, rfl⟩ := h cause hcause
  rfl

end Run

open Run

variable {literal : Nat → Prop} {limit depth : Nat}

namespace Expr

/-- An operator between operands is expected if they are: at most it complains of them. -/
theorem expected_applied {op : Operator} {left right : Run Value} (hbinary : op.isBinary = true)
    (hassignment : op.isAssignment = false) (hleft : Expected limit depth left)
    (hright : Expected limit depth right) : Expected limit depth (applied op left right) := by
  refine hleft.bind fun leftValue => hright.bind fun rightValue => ?_
  refine Expected.bind ?_ expected_settle
  exact expected_of_complains (Operator.complains_binary hbinary hassignment leftValue rightValue)

/-- An assignment is expected if its right side is. -/
theorem expected_assigned {op : Operator} {right : Run Value} (hright : Expected limit depth right)
    (spelling : String) : Expected limit depth (assigned op spelling right) := by
  unfold assigned
  split
  · exact hright
  · rename_i op' hcompound
    obtain ⟨hbinary, hassignment⟩ := Operator.isBinary_of_compound hcompound
    exact expected_applied hbinary hassignment (expected_load spelling) hright

/-- Evaluating what a text can spell stops only on operands of the wrong kind or on targets that are
no names. -/
theorem expected_eval {expr : Expr} (h : expr.IsSpelled literal) :
    Expected limit depth expr.eval := by
  induction expr using eval_induction with
  | name spelling place =>
    rw [Expr.eval]
    exact (expected_load spelling).locate _
  | number value place =>
    rw [Expr.eval]
    exact (expected_pure _).locate _
  | string value place =>
    rw [Expr.eval]
    exact (expected_pure _).locate _
  | unary op operand place ih =>
    obtain ⟨hunary, hoperand⟩ := h
    rw [Expr.eval]
    refine Expected.locate ((ih hoperand).bind fun value => ?_) _
    refine Expected.bind ?_ expected_settle
    exact expected_of_complains (Operator.complains_unary hunary value)
  | typeOf operand place ih =>
    rw [Expr.eval]
    exact Expected.locate ((ih h).bind fun value => expected_settle _) _
  | assign spelling place op right place' hop ih =>
    rw [eval_assign hop]
    refine Expected.locate ((expected_assigned (ih h.2.2) spelling).bind fun value => ?_) _
    exact (expected_store spelling value).bind fun _ => expected_pure value
  | noTarget left op right place hop hleft =>
    rw [eval_noTarget hop hleft]
    exact expected_throw rfl
  | binary left op right place hop ihleft ihright =>
    obtain ⟨hbinary, hleft, hright⟩ := h
    rw [eval_binary hop]
    exact Expected.locate (expected_applied hbinary hop (ihleft hleft) (ihright hright)) _
  -- no text spells the trees that are left
  | gap op right place hop => exact h.2.1.elim
  | trailing operand op place => exact h.elim
  | misplaced form rendering place => exact h.elim
  | absent => exact h.elim

/-- An expression that a text can spell is expected, or too deep for the limit. -/
theorem expected_evalWithin {expr : Expr} (h : expr.IsSpelled literal) (limit : Nat) :
    Expected limit expr.depth (expr.evalWithin limit) := by
  unfold evalWithin
  split
  · rename_i hdepth
    exact expected_throw hdepth
  · exact expected_eval h

end Expr

namespace Stmt

variable {settings : Settings}

/-- Tracing stops only on statements that are nested too deeply: what a text can spell can be
written out again. -/
theorem expected_trace {stmt : Stmt} (h : stmt.IsSpelled literal) :
    Expected settings.limit stmt.depth (stmt.trace settings) := by
  refine expected_get.bind fun machine => ?_
  split
  · refine (expected_record _).bind fun _ => ?_
    split
    · rename_i hdepth
      exact expected_throw hdepth
    · rw [render?_of_isSpelled h]
      exact expected_record _
  · exact expected_pure _

/-- A condition that a text can spell is expected. -/
theorem expected_holds {condition : Expr} (h : condition.IsSpelled literal) :
    Expected settings.limit condition.depth (holds settings condition) := by
  refine (Expr.expected_evalWithin h settings.limit).bind fun value => ?_
  split
  · exact expected_pure _
  · exact expected_throw rfl

/-- A program ends itself only on a value that is a status. -/
theorem expected_end (value : Value) :
    Expected limit depth
      (Run.ofExcept value.exitStatus >>= fun status => throw (.ended status value) :
        Run (Option Value)) := by
  cases hstatus : value.exitStatus with
  | ok status => exact expected_throw hstatus
  | error cause =>
    -- only a string is no status
    cases value <;> cases hstatus
    exact expected_throw rfl

mutual

/-- **Every statement that a text can spell stops only as expected.** By induction on the tree; the
reasons of a part are reasons of the whole, which is nested more deeply. -/
theorem expected_execute : ∀ (stmt : Stmt), stmt.IsSpelled literal →
    Expected settings.limit stmt.depth (stmt.execute settings)
  | .expression expr _, h => by
    rw [execute, depth]
    have hexpr := (Expr.expected_evalWithin h settings.limit).mono (Nat.le_succ _)
    exact hexpr.bind fun _ => expected_pure _
  | .print expr _, h => by
    rw [execute, depth]
    have hexpr := (Expr.expected_evalWithin h settings.limit).mono (Nat.le_succ _)
    exact hexpr.bind fun _ => (expected_record _).bind fun _ => expected_pure _
  | .ret expr _, h => by
    rw [execute_ret, depth]
    have hexpr := (Expr.expected_evalWithin h settings.limit).mono (Nat.le_succ _)
    exact hexpr.bind fun value => expected_end value
  | .block body _, h => by
    rw [execute, depth]
    have hbody := (expected_executeAll body h).mono (Nat.le_succ _)
    -- the reasons to stop have nothing to do with the depth of blocks
    exact hbody.nested.bind fun _ => expected_pure _
  | .cond condition body _, ⟨hcondition, hbody⟩ => by
    rw [execute, depth]
    refine Expected.bind ((expected_holds hcondition).mono (by omega)) fun truth => ?_
    cases truth with
    | true => exact ((expected_execute body hbody).mono (by omega)).bind fun _ => expected_pure _
    | false => exact expected_pure _
  | .condElse condition body other _, ⟨hcondition, hbody, hother⟩ => by
    rw [execute, depth]
    refine Expected.bind ((expected_holds hcondition).mono (by omega)) fun truth => ?_
    cases truth with
    | true => exact ((expected_execute body hbody).mono (by omega)).bind fun _ => expected_pure _
    | false => exact ((expected_execute other hother).mono (by omega)).bind fun _ => expected_pure _
  | .misplaced _, h => h.elim

/-- Statements that a text can spell are expected. -/
theorem expected_executeAll : ∀ (row : List Stmt), AreSpelled literal row →
    Expected settings.limit (depthAll row) (executeAll settings row)
  | [], _ => by
    rw [executeAll]
    exact expected_pure _
  | first :: rest, ⟨hfirst, hrest⟩ => by
    rw [executeAll, depthAll]
    have hle : first.depth ≤ max first.depth (depthAll rest) := Nat.le_max_left _ _
    refine ((expected_trace hfirst).mono hle).bind fun _ => ?_
    refine (expected_modify _).bind fun _ => ?_
    refine (((expected_execute first hfirst).mono hle).settle first).bind fun result => ?_
    refine ((expected_executeAll rest hrest).mono (Nat.le_max_right _ _)).bind fun last => ?_
    exact expected_pure _

end

end Stmt

/-! ## Whole programs -/

/-- The ways in which the run of a program that was read from a text may end. They exclude each
other. -/
inductive EndsWell (limit depth : Nat) : Except Failure (Option Value) → Prop where
  /-- With a result, or with none if the program has no expression on its own. -/
  | result (value : Option Value) : EndsWell limit depth (.ok value)
  /-- By ending itself, with a status of 32 bits. -/
  | ended {status : Int} {value : Value} (hlow : Decimal.int32Min ≤ status)
      (hhigh : status ≤ Decimal.int32Max) :
      EndsWell limit depth (.error (.halted (.ended status value)))
  /-- On a value of the wrong kind, and not on an operator without a meaning. -/
  | kinds {fault : Fault} (hfamily : fault.cause.family = .kinds)
      (hmeaning : ∀ op, fault.cause ≠ .notUnary op ∧ fault.cause ≠ .notBinary op) :
      EndsWell limit depth (.error (.halted (.failed fault)))
  /-- On an assignment to something that is not a name. -/
  | assignment {fault : Fault} (hfamily : fault.cause.family = .assignment) :
      EndsWell limit depth (.error (.halted (.failed fault)))
  /-- On a tree that is nested more deeply than the limit. -/
  | tooDeep (hdepth : limit < depth) : EndsWell limit depth (.error (.halted .tooDeep))

/-- A run that stops as expected ends well. -/
theorem Halt.IsExpected.endsWell {limit depth : Nat} {halt : Halt}
    (h : halt.IsExpected limit depth) : EndsWell limit depth (.error (.halted halt)) := by
  cases halt with
  | ended status value =>
    obtain ⟨hlow, hhigh⟩ := Value.exitStatus_bounds h
    exact .ended hlow hhigh
  | failed fault =>
    obtain ⟨cause, node, place⟩ := fault
    cases cause with
    -- operators without a meaning belong to the same family, but are not expected
    | operands | condition | status => exact .kinds rfl fun op => ⟨nofun, nofun⟩
    | target => exact .assignment rfl
    | notUnary | notBinary | trailing | evaluation | execution => cases h
  | tooDeep => exact .tooDeep h
  | broken | gap | absent => exact h.elim

/-- **Programs do not go wrong.** In any session and with any amount of tracing, a text that is a
program ends with a result, or with a status of 32 bits, or fails on kinds or on an assignment; only
a tree that is nested more deeply than the limit can stop the run otherwise. In particular, no
primitive of arithmetic or comparison breaks down, and no form without a meaning is met. However the
run ends, a sound session stays sound. -/
theorem run_ends_well (session : Session) (settings : Settings) (filename : Option String)
    (source : String) (program : List Stmt)
    (hread : Program.ofSource settings.limit filename session.nextHandle source = .ok program) :
    let reply := session.run settings filename source
    EndsWell settings.limit (Stmt.depthAll program) reply.outcome ∧
      (session.IsSound → reply.session.IsSound) := by
  intro reply
  refine ⟨?_, fun hsound => hsound.run⟩
  -- a program that was read can be spelled, so its run stops in no other way
  have hrow : Expected settings.limit (Stmt.depthAll program) (Stmt.executeAll settings program) :=
    Stmt.expected_executeAll program (Session.spelled_of_ofSource hread)
  have hrun := hrow (session.afterReading source).machine trivial
  have hreply : reply = (session.afterReading source).execute settings program :=
    Session.run_of_ofSource hread
  rw [hreply, Session.execute]
  cases hfound : Stmt.executeAll settings program (session.afterReading source).machine with
  | ok result machine => exact .result result
  | error halt machine =>
    rw [hfound] at hrun
    exact Halt.IsExpected.endsWell hrun

/-- Adding a string to a name that was never bound, with all statements traced. -/
theorem run_ends_well_on_unbound_name :
    let settings : Settings := { verbosity := 2, limit := 9 }
    let reply := Session.run {} settings none "x += \"a\""
    EndsWell settings.limit 3 reply.outcome ∧ reply.session.IsSound := by
  intro settings reply
  have hread : Program.ofSource settings.limit none 0 "x += \"a\"" =
      .ok [.expression (.binary (.name "x" (some ⟨none, 1, 1⟩)) .addAssign
        (.string ⟨"a", 5⟩ (some ⟨none, 1, 6⟩)) (some ⟨none, 1, 3⟩)) (some ⟨none, 1, 1⟩)] := by cbv
  have hends := run_ends_well {} settings none _ _ hread
  exact ⟨hends.1, hends.2 (Bindings.areBelow_empty 0)⟩

end Scriptlet
