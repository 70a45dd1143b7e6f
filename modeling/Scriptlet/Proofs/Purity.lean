import Mathlib
import Scriptlet.Proofs.Visibility

/-! # Expressions without assignments

An expression in which nothing is assigned changes nothing but the number of handles that were
given out, and has the same outcome whenever it is evaluated. Strings that it makes are new every
time, and identity can be asked for inside the expression, so two evaluations are compared along a
pairing of handles: those given out before stand for themselves, those that the one makes stand for
those that the other makes, in order.

* `Machine.Counted`: two machines that differ from a third one in their next handles only.
* `Run.Recurs`: two computations end in the same way and only give out handles.
* `pure_expression_recurs`: an expression without assignments has the same outcome again. -/

namespace Scriptlet

/-- Whether no operator between two operands assigns. -/
def Expr.isAssignmentFree : Expr → Bool
  | .unary _ operand _ | .trailing operand _ _ | .typeOf operand _ => operand.isAssignmentFree
  | .binary left op right _ =>
    !op.isAssignment && left.isAssignmentFree && right.isAssignmentFree
  | .name .. | .number .. | .string .. | .misplaced .. | .absent => true

/-- A value and what it is once more, for an expression that was evaluated first from one bound of
handles to another, and then from there on: numbers and booleans are the same; a string from before
is the same; and a string that was made has the same content and a handle that is new each time. -/
def Value.Recurs (bound bound' : Nat) : Value → Value → Prop
  | .string value, .string value' =>
    value'.content = value.content ∧
      ((value.handle < bound ∧ value'.handle = value.handle) ∨
        (bound ≤ value.handle ∧ value.handle < bound' ∧ bound' ≤ value'.handle))
  | value, value' => value' = value

/-- Two machines hold what a third one holds, and have given out equally many handles since their
next handles were at two bounds. -/
def Machine.Counted (start : Machine) (bound bound' : Nat) (machine machine' : Machine) : Prop :=
  ∃ made, machine = { start with nextHandle := bound + made } ∧
    machine' = { start with nextHandle := bound' + made }

namespace Run

variable {α β : Type} {start : Machine} {bound bound' : Nat} {results : Nat → α → α → Prop}
  {run run' : Run α}

/-- Two computations both return, with results that belong together, or both stop for the same
reason, and they do nothing but give out equally many handles. Which results belong together may
depend on the next free handle. -/
def Recurs (start : Machine) (bound bound' : Nat) (results : Nat → α → α → Prop)
    (run run' : Run α) : Prop :=
  Couple (start.Counted bound bound') run run'
    (fun result result' machine machine' =>
      results machine.nextHandle result result' ∧ start.Counted bound bound' machine machine')
    fun halt halt' machine machine' =>
      halt' = halt ∧ start.Counted bound bound' machine machine'

/-- A computation that only answers gives its answer again. -/
theorem recurs_pure {result : α} (h : ∀ made, results (bound + made) result result) :
    Recurs start bound bound' results (pure result) (pure result) := by
  refine couple_pure ?_
  rintro _ _ ⟨made, rfl, rfl⟩
  exact ⟨h made, made, rfl, rfl⟩

/-- A computation that stops does so again, and for the same reason. -/
theorem recurs_throw (halt : Halt) : Recurs start bound bound' results (throw halt) (throw halt) :=
  couple_throw fun _ _ hcounted => ⟨rfl, hcounted⟩

/-- Two computations in turn recur if the first does, and the second does for each of its
results. -/
theorem Recurs.bind {next next' : α → Run β} {last : Nat → β → β → Prop}
    (hrun : Recurs start bound bound' results run run')
    (hnext : ∀ reached result result', results reached result result' →
      Recurs start bound bound' last (next result) (next' result')) :
    Recurs start bound bound' last (run >>= next) (run' >>= next') := by
  refine Couple.bind hrun ?_
  rintro result result' machine machine' ⟨hresult, hcounted⟩
  exact hnext machine.nextHandle result result' hresult machine machine' hcounted

/-- Which node is blamed does not matter to a recurrence. -/
theorem Recurs.locate (h : Recurs start bound bound' results run run') (node : Node) :
    Recurs start bound bound' results (EStateM.adaptExcept (Halt.locate node) run)
      (EStateM.adaptExcept (Halt.locate node) run') := by
  refine Couple.adaptExcept h ?_
  rintro halt _ machine machine' ⟨rfl, hcounted⟩
  exact ⟨rfl, hcounted⟩

/-- An answer that is known, or a cause, recurs as it is. -/
theorem recurs_ofExcept (answer : Except Cause α) :
    Recurs start bound bound' (fun _ result result' => result' = result) (ofExcept answer)
      (ofExcept answer) := by
  cases answer with
  | ok result => exact recurs_pure fun _ => rfl
  | error cause => exact recurs_throw _

/-- What two computations leave has been counted alike, however they end. -/
theorem Recurs.counted (h : Recurs start bound bound' results run run') {machine machine' : Machine}
    (hmachines : start.Counted bound bound' machine machine') :
    start.Counted bound bound' (run.final machine) (run'.final machine') := by
  obtain ⟨result, result', left, right, hrun, hrun', -, hcounted⟩ |
    ⟨halt, halt', left, right, hrun, hrun', -, hcounted⟩ := Couple.cases h hmachines
  · rw [Run.final, Run.final, hrun, hrun']
    exact hcounted
  · rw [Run.final, Run.final, hrun, hrun']
    exact hcounted

end Run

open Run

/-- What two evaluations may differ in: handles from before the first one stand for themselves, and
those that it gives out for those that the second one gives out. -/
def Likeness.recurring (bound bound' : Nat) : Likeness :=
  .upTo (Beyond Eq bound bound') fun _ => True

/-- Values of two evaluations, of which the first one has a handle that was given out, if any. -/
def Value.Paired (bound bound' reached : Nat) (value value' : Value) : Prop :=
  value.Like (.recurring bound bound') value' ∧ value.IsBelow reached

/-- New strings are paired: both evaluations have made equally many. -/
theorem Run.recurs_settle {start : Machine} {bound bound' : Nat} (yield : Yield) :
    Recurs start bound bound' (Value.Paired bound bound') (settle yield) (settle yield) := by
  rintro _ _ ⟨made, rfl, rfl⟩
  refine ⟨⟨yield.like_toValue (.inr ⟨made, rfl, rfl⟩), yield.isBelow_toValue (bound + made)⟩, ?_⟩
  exact ⟨made + 1, rfl, rfl⟩

/-- A string that was there before the first evaluation is paired with itself. -/
theorem Value.IsBelow.paired {bound bound' : Nat} {value : Value} (h : value.IsBelow bound)
    (hle : bound ≤ bound') (made : Nat) : value.Paired bound bound' (bound + made) value :=
  ⟨h.like_self (h.mono hle) _, h.mono (Nat.le_add_right bound made)⟩

namespace Expr

variable {start : Machine} {bound bound' : Nat}

/-- An operator makes the same of operands that are paired, also if it asks for their identity. -/
theorem recurs_applied (op : Operator) {left left' right right' : Run Value}
    (hleft : Recurs start bound bound' (Value.Paired bound bound') left left')
    (hright : Recurs start bound bound' (Value.Paired bound bound') right right') :
    Recurs start bound bound' (Value.Paired bound bound') (applied op left right)
      (applied op left' right') := by
  refine hleft.bind fun _ leftValue leftValue' hleftValue => ?_
  refine hright.bind fun _ rightValue rightValue' hrightValue => ?_
  have hpairing : IsPairing (Likeness.recurring bound bound').handle := isPairing_eq.beyond _ _
  rw [Operator.binary_eq hpairing op hleftValue.1 hrightValue.1]
  refine (recurs_ofExcept _).bind ?_
  rintro _ _ yield rfl
  exact recurs_settle yield

/-- **An expression without assignments recurs.** By induction over evaluation: what it reads is
bound on both machines alike, and what it makes is paired. -/
theorem recurs_eval {expr : Expr} (hfree : expr.isAssignmentFree = true)
    (hbindings : start.bindings.AreBelow bound) (hle : bound ≤ bound')
    (hstrings : ∀ value ∈ expr.strings, value.handle < bound) :
    Recurs start bound bound' (Value.Paired bound bound') expr.eval expr.eval := by
  induction expr using eval_induction with
  | name spelling place =>
    rw [Expr.eval]
    refine Recurs.locate ?_ _
    rintro _ _ ⟨made, rfl, rfl⟩
    exact ⟨(hbindings.read spelling).paired hle made, made, rfl, rfl⟩
  | number value place =>
    rw [Expr.eval]
    have hvalue : (Value.number value).IsBelow bound := trivial
    exact Recurs.locate (recurs_pure (hvalue.paired hle)) _
  | string value place =>
    rw [Expr.eval]
    have hvalue : (Value.string value).IsBelow bound := hstrings value (List.mem_singleton.2 rfl)
    exact Recurs.locate (recurs_pure (hvalue.paired hle)) _
  | unary op operand place ih =>
    rw [Expr.eval]
    refine Recurs.locate ((ih hfree hstrings).bind fun _ value value' hvalue => ?_) _
    rw [Operator.unary_eq op hvalue.1]
    refine (recurs_ofExcept _).bind ?_
    rintro _ _ yield rfl
    exact recurs_settle yield
  | typeOf operand place ih =>
    rw [Expr.eval]
    refine Recurs.locate ((ih hfree hstrings).bind fun _ value value' hvalue => ?_) _
    rw [hvalue.1.kind_eq]
    exact recurs_settle _
  | binary left op right place hop ihleft ihright =>
    rw [isAssignmentFree, Bool.and_eq_true, Bool.and_eq_true] at hfree
    rw [strings, List.forall_mem_append] at hstrings
    rw [eval_binary hop]
    have hleft := ihleft hfree.1.2 hstrings.1
    have hright := ihright hfree.2 hstrings.2
    exact (recurs_applied op hleft hright).locate _
  -- nothing is assigned
  | assign spelling place op right place' hop ih => simp [isAssignmentFree, hop] at hfree
  | noTarget left op right place hop hleft => simp [isAssignmentFree, hop] at hfree
  | gap op right place hop => simp [isAssignmentFree, hop] at hfree
  | trailing operand op place =>
    rw [Expr.eval]
    exact Recurs.locate (recurs_throw _) _
  | misplaced form rendering place =>
    rw [Expr.eval]
    exact Recurs.locate (recurs_throw _) _
  | absent =>
    rw [Expr.eval]
    exact Recurs.locate (recurs_throw _) _

end Expr

/-- Values that are paired, the first of them known where the second evaluation begins, are the same
up to new strings. -/
theorem Value.Paired.recurs {bound bound' : Nat} {value value' : Value}
    (h : value.Paired bound bound' bound' value') : value.Recurs bound bound' value' := by
  obtain ⟨hlike, hbelow⟩ := h
  cases hlike with
  | number value => rfl
  | boolean value => rfl
  | string hvalue =>
    obtain ⟨content, hhandle⟩ := hvalue
    refine ⟨rfl, ?_⟩
    rcases hhandle with ⟨rfl, hlt, -⟩ | ⟨made, rfl, rfl⟩
    · exact .inl ⟨hlt, rfl⟩
    · exact .inr ⟨Nat.le_add_right bound made, hbelow, Nat.le_add_right bound' made⟩

/-- **Expressions without assignments are pure and can be repeated.** On a sound machine that knows
the strings in it, the evaluation of an expression without assignments changes nothing but the next
free handle: bindings, journal and counters stay as they are. Evaluated once more, the expression
fails for the same reason, at the same node, or it has the same value; a string that was there
before is the same one again, and any other has the same content and is new each time. -/
theorem pure_expression_recurs (expr : Expr) (machine : Machine)
    (hfree : expr.isAssignmentFree = true) (hsound : machine.IsSound)
    (hstrings : ∀ value ∈ expr.strings, value.handle < machine.nextHandle) :
    let first := expr.eval.final machine
    first = { machine with nextHandle := first.nextHandle } ∧
    machine.nextHandle ≤ first.nextHandle ∧
    match expr.eval.outcome machine, expr.eval.outcome first with
    | .ok value, .ok value' => value.Recurs machine.nextHandle first.nextHandle value'
    | .error halt, .error halt' => halt' = halt
    | _, _ => False := by
  intro first
  obtain ⟨made, hfirst, -⟩ : machine.Counted machine.nextHandle machine.nextHandle first first :=
    (Expr.recurs_eval hfree hsound (Nat.le_refl _) hstrings).counted ⟨0, rfl, rfl⟩
  have hnext : first.nextHandle = machine.nextHandle + made := by rw [hfirst]
  have hle : machine.nextHandle ≤ first.nextHandle := by omega
  have hsecond : first = { machine with nextHandle := first.nextHandle } := by
    rw [hfirst]
  refine ⟨hsecond, hle, ?_⟩
  -- the second evaluation begins where the first one has ended
  have hstart : machine.Counted machine.nextHandle first.nextHandle machine first :=
    ⟨0, rfl, hsecond⟩
  have hrecurs := Expr.recurs_eval hfree hsound hle hstrings
  obtain ⟨value, value', after, after', hrun, hrun', hpaired, -⟩ |
    ⟨halt, halt', after, after', hrun, hrun', hhalt, -⟩ := Couple.cases hrecurs hstart
  · have hreached : first = after := by
      show expr.eval.final machine = after
      rw [Run.final, hrun]
    rw [← hreached] at hpaired
    rw [Run.outcome, Run.outcome, hrun, hrun']
    exact hpaired.recurs
  · rw [Run.outcome, Run.outcome, hrun, hrun']
    exact hhalt

/-- The string that `x + typeof x` makes is new each time. -/
theorem pure_expression_recurs_with_new_string :
    let machine : Machine := { bindings := .ofList [("x", .string ⟨"a", 0⟩)], nextHandle := 2 }
    let expr : Expr := .binary (.name "x" none) .plus (.typeOf (.name "x" none) none) none
    let first := expr.eval.final machine
    expr.isAssignmentFree = true ∧ machine.IsSound ∧
    first = { machine with nextHandle := 4 } ∧
    expr.eval.outcome machine = .ok (.string ⟨"astring", 3⟩) ∧
    expr.eval.outcome first = .ok (.string ⟨"astring", 5⟩) ∧
    (Value.string ⟨"astring", 3⟩).Recurs machine.nextHandle first.nextHandle
      (.string ⟨"astring", 5⟩) := by
  intro machine expr first
  have hsound : machine.IsSound :=
    (Bindings.areBelow_empty 2).insert (show (Value.string ⟨"a", 0⟩).IsBelow 2 from Nat.two_pos) "x"
  have hvalue : expr.eval.outcome machine = .ok (.string ⟨"astring", 3⟩) := rfl
  have hvalue' : expr.eval.outcome first = .ok (.string ⟨"astring", 5⟩) := rfl
  have hnone : expr.strings = [] := rfl
  obtain ⟨hfirst, -, hrecurs⟩ :=
    pure_expression_recurs expr machine rfl hsound (hnone ▸ List.forall_mem_nil _)
  -- both evaluations make a string with the same content and a handle of its own
  rw [hvalue, hvalue'] at hrecurs
  exact ⟨rfl, hsound, hfirst, hvalue, hvalue', hrecurs⟩

end Scriptlet
