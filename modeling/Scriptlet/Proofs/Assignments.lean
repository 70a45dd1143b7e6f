import Scriptlet.Proofs.Runs

/-! # What assignments do

Which names an expression binds, and in which order, can be read off its tree: operands are
evaluated from left to right, all of them, whatever their values are, and an assignment binds its
name once its right side has a value. Only an early stop cuts this order short. A compound
assignment does what the plain assignment of its operator does.

* `Expr.writes`: the names that an expression binds, in order.
* `Run.Writes`: a computation binds names in order, or stops on the way.
* `eval_binds_in_order`: the evaluation of an expression binds the names that its tree gives.
* `compound_assignment_expands`: a compound assignment and its expansion do the same. -/

namespace Scriptlet

/-! ## Binding one name after the other -/

/-- Binds names to values, one after the other. -/
def Bindings.insertAll (bindings : Bindings Value) (entries : List (String × Value)) :
    Bindings Value :=
  entries.foldl (fun bindings entry => bindings.insert entry.1 entry.2) bindings

/-- To set two rows of entries in turn is to set them as one row. -/
@[simp] theorem Bindings.insertAll_append (bindings : Bindings Value)
    (entries entries' : List (String × Value)) :
    bindings.insertAll (entries ++ entries') = (bindings.insertAll entries).insertAll entries' :=
  List.foldl_append

/-- A second machine comes from a first one by binding names, one after the other: the bindings are
what comes of it, and the journal has each of the names and nothing else. -/
def Machine.Wrote (names : List String) (machine machine' : Machine) : Prop :=
  ∃ entries, entries.map Prod.fst = names ∧
    machine'.bindings = machine.bindings.insertAll entries ∧
    machine'.journal = machine.journal ++ names.map Event.stored

namespace Machine

variable {names names' : List String} {machine between machine' : Machine}

/-- A machine with the bindings and the journal of the first has written nothing. -/
theorem wrote_nothing (hbindings : machine'.bindings = machine.bindings)
    (hjournal : machine'.journal = machine.journal) : machine.Wrote [] machine' :=
  ⟨[], rfl, hbindings, by simp [hjournal]⟩

/-- What two stretches write in turn, they write together in that order. -/
theorem Wrote.trans (h : machine.Wrote names between) (h' : between.Wrote names' machine') :
    machine.Wrote (names ++ names') machine' := by
  obtain ⟨entries, rfl, hbindings, hjournal⟩ := h
  obtain ⟨entries', rfl, hbindings', hjournal'⟩ := h'
  refine ⟨entries ++ entries', by simp, ?_, ?_⟩
  · rw [hbindings', hbindings, Bindings.insertAll_append]
  · simp [hjournal', hjournal]

end Machine

namespace Run

variable {α β : Type} {names names' : List String} {run : Run α} {next : α → Run β}

/-- A computation that returns has bound some names, in order, and one that stops has bound the
first few of them. -/
def Writes (names : List String) (run : Run α) : Prop :=
  ∀ machine,
    match run machine with
    | .ok _ after => machine.Wrote names after
    | .error _ after => ∃ done, done <+: names ∧ machine.Wrote done after

/-- A computation that only answers writes nothing. -/
theorem writes_pure (result : α) : Writes [] (pure result : Run α) :=
  fun _ => Machine.wrote_nothing rfl rfl

/-- A computation that stops at once has bound no name, whichever were to come. -/
theorem writes_throw (names : List String) (halt : Halt) : Writes names (throw halt : Run α) :=
  fun _ => ⟨[], List.nil_prefix, Machine.wrote_nothing rfl rfl⟩

/-- **One computation behind another** binds its names behind those of the first. -/
theorem Writes.bind (hrun : Writes names run) (hnext : ∀ result, Writes names' (next result)) :
    Writes (names ++ names') (run >>= next) := by
  intro machine
  have hfirst := hrun machine
  cases hfound : run machine with
  | error halt after =>
    rw [hfound] at hfirst
    rw [bind_of_error hfound]
    obtain ⟨done, hdone, hwrote⟩ := hfirst
    -- stopped by the first: a prefix of its writes is one of both
    exact ⟨done, hdone.trans (List.prefix_append names names'), hwrote⟩
  | ok result between =>
    have hsecond := hnext result between
    rw [hfound] at hfirst
    rw [bind_of_ok hfound]
    cases hlast : next result between with
    | ok last after =>
      rw [hlast] at hsecond
      exact hfirst.trans hsecond
    | error halt after =>
      rw [hlast] at hsecond
      obtain ⟨done, hdone, hwrote⟩ := hsecond
      -- stopped by the second: all writes of the first are behind it
      exact ⟨names ++ done, (List.prefix_append_right_inj names).2 hdone, hfirst.trans hwrote⟩

/-- A computation behind another that binds no name. -/
theorem Writes.andThen (hrun : Writes names run) (hnext : ∀ result, Writes [] (next result)) :
    Writes names (run >>= next) := by
  simpa using hrun.bind hnext

/-- Where a stop is reported from does not matter. -/
theorem Writes.adaptExcept (h : Writes names run) (report : Halt → Halt) :
    Writes names (EStateM.adaptExcept report run) := by
  intro machine
  have hrun := h machine
  unfold EStateM.adaptExcept
  cases hfound : run machine with
  | ok result after =>
    rw [hfound] at hrun
    exact hrun
  | error halt after =>
    rw [hfound] at hrun
    exact hrun

/-- An answer that is known, or a cause, writes nothing. -/
theorem writes_ofExcept (answer : Except Cause α) : Writes [] (ofExcept answer) := by
  cases answer with
  | ok result => exact writes_pure result
  | error cause => exact writes_throw [] _

/-- To look a name up writes nothing. -/
theorem writes_load (name : String) : Writes [] (load name) :=
  fun _ => Machine.wrote_nothing rfl rfl

/-- To settle what an expression yields writes nothing. -/
theorem writes_settle (yield : Yield) : Writes [] (settle yield) :=
  fun _ => Machine.wrote_nothing rfl rfl

/-- To store a value writes the name it is stored under. -/
theorem writes_store (name : String) (value : Value) : Writes [name] (store name value) :=
  fun _ => ⟨[(name, value)], rfl, rfl, rfl⟩

end Run

open Run

/-! ## The order in which names are bound -/

namespace Expr

/-- The names that an expression binds, in order: those of its operands from left to right, and for
an assignment to a name those of its right side and then the name. An assignment to anything else
and an operator behind its operand bind nothing, since they stop before they evaluate a part. -/
def writes : Expr → List String
  | .unary _ operand _ | .typeOf operand _ => operand.writes
  | .binary left op right _ =>
    if op.isAssignment then
      match left.target? with
      | some spelling => right.writes ++ [spelling]
      | none => []
    else left.writes ++ right.writes
  | _ => []

/-- An operator writes what its operands write, the left one first, and nothing of its own. -/
theorem writes_applied (op : Operator) {names names' : List String} {left right : Run Value}
    (hleft : Writes names left) (hright : Writes names' right) :
    Writes (names ++ names') (applied op left right) := by
  refine hleft.bind fun leftValue => hright.andThen fun rightValue => ?_
  exact (writes_ofExcept _).andThen writes_settle

/-- Reading what is bound, as a compound assignment does first, binds nothing. -/
theorem writes_assigned (op : Operator) (spelling : String) {names : List String}
    {right : Run Value} (hright : Writes names right) :
    Writes names (assigned op spelling right) := by
  unfold assigned
  split
  · exact hright
  · exact writes_applied _ (writes_load spelling) hright

/-- **The evaluation of an expression binds the names that its tree gives.** By induction over
evaluation; which operator is applied, and to what, does not matter. -/
theorem writes_eval (expr : Expr) : Writes expr.writes expr.eval := by
  induction expr using eval_induction with
  | name spelling place =>
    rw [Expr.eval]
    exact (writes_load spelling).adaptExcept _
  | number value place =>
    rw [Expr.eval]
    exact Writes.adaptExcept (writes_pure _) _
  | string value place =>
    rw [Expr.eval]
    exact Writes.adaptExcept (writes_pure _) _
  | unary op operand place ih =>
    rw [Expr.eval]
    refine Writes.adaptExcept (ih.andThen fun value => ?_) _
    exact (writes_ofExcept _).andThen writes_settle
  | typeOf operand place ih =>
    rw [Expr.eval]
    exact Writes.adaptExcept (ih.andThen fun value => writes_settle _) _
  | assign spelling place op right place' hop ih =>
    rw [eval_assign hop, writes, if_pos hop]
    refine Writes.adaptExcept ((writes_assigned op spelling ih).bind fun value => ?_) _
    exact (writes_store spelling value).andThen fun _ => writes_pure value
  -- what is no target is refused before anything inside is evaluated
  | noTarget left op right place hop hleft =>
    rw [eval_noTarget hop hleft]
    exact writes_throw _ _
  | binary left op right place hop ihleft ihright =>
    rw [eval_binary hop, writes, if_neg (by simp [hop])]
    exact (writes_applied op ihleft ihright).adaptExcept _
  | gap op right place hop =>
    rw [eval_gap hop]
    exact writes_throw _ _
  | trailing operand op place =>
    rw [Expr.eval]
    exact Writes.adaptExcept (writes_throw _ _) _
  | misplaced form rendering place =>
    rw [Expr.eval]
    exact Writes.adaptExcept (writes_throw _ _) _
  | absent =>
    rw [Expr.eval]
    exact Writes.adaptExcept (writes_throw _ _) _

end Expr

/-- **Names are bound in the order of the tree.** If an expression has a value, then exactly the
names that its tree gives were bound, in this order, whatever the values of its operands are; if
its evaluation stops, then a first few of them. An assignment to something that is no name fails
for that reason, on a machine on which nothing has happened: neither its left nor its right side is
evaluated. -/
theorem eval_binds_in_order (expr : Expr) (machine : Machine) :
    (match expr.eval machine with
      | .ok _ after => machine.Wrote expr.writes after
      | .error _ after => ∃ done, done <+: expr.writes ∧ machine.Wrote done after) ∧
    ∀ (left : Expr) (op : Operator) (right : Expr) (place : Option Position),
      op.isAssignment = true → left.isNoTarget = true →
      ∃ fault, (Expr.binary left op right place).eval machine = .error (.failed fault) machine ∧
        fault.cause.family = .assignment ∧ fault.node = some (.expression left) := by
  constructor
  · have hwrites := expr.writes_eval machine
    cases hfound : expr.eval machine with
    | ok value after =>
      rw [hfound] at hwrites
      exact hwrites
    | error halt after =>
      rw [hfound] at hwrites
      exact hwrites
  · intro left op right place hop hleft
    -- it stops before the right side, so the machine is untouched
    refine ⟨⟨.target op, some (.expression left), left.place?⟩, ?_, rfl, rfl⟩
    rw [Expr.eval_noTarget hop hleft]
    rfl

/-- A conjunction whose left side is false still binds the name on its right, and an assignment to a
string does not come to the one on its right side. -/
theorem eval_binds_in_order_behind_false :
    let equal (left right : StringValue) : Expr :=
      .binary (.string left none) .equal (.string right none) none
    let expr : Expr := .binary
      (.binary (.name "a" none) .assign (equal ⟨"x", 0⟩ ⟨"y", 1⟩) none) .logicalAnd
      (.binary (.name "b" none) .assign (equal ⟨"x", 0⟩ ⟨"x", 2⟩) none) none
    let machine : Machine := { nextHandle := 3 }
    (∃ after, expr.eval machine = .ok (.boolean false) after ∧ machine.Wrote ["a", "b"] after) ∧
      ∃ fault, (Expr.binary (.string ⟨"x", 0⟩ none) .assign expr none).eval machine =
          .error (.failed fault) machine ∧
        fault.cause.family = .assignment ∧
        fault.node = some (.expression (.string ⟨"x", 0⟩ none)) := by
  intro equal expr machine
  have hvalue : ∃ after, expr.eval machine = .ok (.boolean false) after := ⟨_, rfl⟩
  obtain ⟨after, hafter⟩ := hvalue
  obtain ⟨hwrote, htarget⟩ := eval_binds_in_order expr machine
  rw [hafter] at hwrote
  exact ⟨⟨after, hafter, hwrote⟩, htarget _ .assign expr none rfl rfl⟩

/-! ## Compound assignments -/

/-- A reason to stop, apart from the node and the position of a fault. What a fault says and which
token it is about depend on its cause alone. -/
def Halt.bare : Halt → Halt
  | .failed fault => .failed { cause := fault.cause }
  | halt => halt

/-- To blame a node changes only the place of a halt. -/
@[simp] theorem Halt.bare_locate (node : Node) (halt : Halt) :
    (halt.locate node).bare = halt.bare := by
  cases halt with
  | failed fault =>
    rw [locate, Fault.locate]
    split
    · rfl
    · rfl
  | _ => rfl

namespace Run

variable {α β : Type} {run run' : Run α}

/-- Two computations do the same on every machine, except that their stops may blame other nodes. -/
def Agrees (run run' : Run α) : Prop :=
  Couple Eq run run' (fun result result' machine machine' => result' = result ∧ machine' = machine)
    fun halt halt' machine machine' => halt'.bare = halt.bare ∧ machine' = machine

/-- Every computation agrees with itself. -/
theorem agrees_self (run : Run α) : Agrees run run := by
  rintro machine _ rfl
  cases run machine with
  | ok result after => exact ⟨rfl, rfl⟩
  | error halt after => exact ⟨rfl, rfl⟩

/-- Passing through a node changes at most the blame. -/
theorem agrees_locate (node : Node) (run : Run α) :
    Agrees run (EStateM.adaptExcept (Halt.locate node) run) := by
  rintro machine _ rfl
  unfold EStateM.adaptExcept
  cases run machine with
  | ok result after => exact ⟨rfl, rfl⟩
  | error halt after => exact ⟨Halt.bare_locate node halt, rfl⟩

/-- Computations that agree still do when each has a node of its own to blame. -/
theorem Agrees.locate (h : Agrees run run') (node node' : Node) :
    Agrees (EStateM.adaptExcept (Halt.locate node) run)
      (EStateM.adaptExcept (Halt.locate node') run') := by
  refine Couple.adaptExcept h ?_
  rintro halt halt' machine machine' ⟨hhalt, hmachine⟩
  exact ⟨by simp [hhalt], hmachine⟩

/-- Computations that agree still do when both are continued in one way. -/
theorem Agrees.bind (h : Agrees run run') (next : α → Run β) :
    Agrees (run >>= next) (run' >>= next) := by
  refine Couple.bind h fun result result' => ?_
  rintro machine _ ⟨rfl, rfl⟩
  exact agrees_self (next result') _ _ rfl

end Run

namespace Expr

/-- Computes a value, binds a name to it and passes it on. -/
def stored (spelling : String) (run : Run Value) : Run Value := do
  let value ← run
  Run.store spelling value
  return value

variable {op used : Operator}

/-- A compound assignment stores what its operator makes of what is bound and of its right side. -/
theorem eval_compound (hop : op.compound? = some used) (spelling : String)
    (place outer : Option Position) (right : Expr) :
    (Expr.binary (.name spelling place) op right outer).eval =
      EStateM.adaptExcept
        (Halt.locate (.expression (.binary (.name spelling place) op right outer)))
        (stored spelling (applied used (Run.load spelling) right.eval)) := by
  have hassignment : op.isAssignment = true := by simp [Operator.isAssignment, hop]
  rw [eval_assign hassignment, assigned, hop]
  rfl

/-- So does the plain assignment of that operator, with one node more that a fault passes through.
Reading the name never fails, so that the node of the name does not count. -/
theorem eval_expansion (hused : used.isAssignment = false) (spelling : String)
    (place place' inner outer : Option Position) (right : Expr) :
    (Expr.binary (.name spelling place) .assign
        (.binary (.name spelling place') used right inner) outer).eval =
      EStateM.adaptExcept
        (Halt.locate (.expression (.binary (.name spelling place) .assign
          (.binary (.name spelling place') used right inner) outer)))
        (stored spelling
          (EStateM.adaptExcept
            (Halt.locate (.expression (.binary (.name spelling place') used right inner)))
            (applied used (Run.load spelling) right.eval))) := by
  rw [eval_assign rfl, assigned, eval_binary hused]
  rfl

/-- What an operator makes of what is bound and of a right side binds no more than the right side
does. -/
theorem bindings_of_applied (used : Operator) (spelling : String) (right : Run Value)
    (machine : Machine) :
    ((applied used (Run.load spelling) right).final machine).bindings =
      (right.final machine).bindings := by
  have hload : Run.load spelling machine =
      .ok ((machine.bindings.get? spelling).getD (.number 0)) machine := rfl
  unfold Run.final
  rw [applied, bind_of_ok hload]
  cases hright : right machine with
  | error halt between => rw [bind_of_error hright]
  | ok value between =>
    rw [bind_of_ok hright]
    -- the operator gives an answer or rejects its operands; neither binds a name
    cases used.binary ((machine.bindings.get? spelling).getD (.number 0)) value with
    | ok yield => rfl
    | error cause => rfl

/-- Behind its right side, a compound assignment binds its name if it has a value, and else
nothing. -/
theorem bindings_of_compound (hop : op.compound? = some used) (spelling : String)
    (place outer : Option Position) (right : Expr) (machine : Machine) :
    match (Expr.binary (.name spelling place) op right outer).eval machine with
    | .ok value after =>
      after.bindings = (right.eval.final machine).bindings.insert spelling value
    | .error _ after => after.bindings = (right.eval.final machine).bindings := by
  have hbindings := bindings_of_applied used spelling right.eval machine
  rw [eval_compound hop, EStateM.adaptExcept, stored, ← hbindings, Run.final]
  -- to apply the operator binds nothing, so what is bound is due to the right side and the store
  cases hmade : applied used (Run.load spelling) right.eval machine with
  | ok value after =>
    rw [bind_of_ok hmade]
    rfl
  | error halt after =>
    rw [bind_of_error hmade]

end Expr

/-- **A compound assignment is its expansion.** A compound assignment to a name, and the plain
assignment to it of what its operator makes of the name and the same right side, both have a value
or both stop, on every machine and whatever the right side does. Values and machines afterwards are
the same, and so are the reasons to stop, apart from the node that is blamed. Behind the right
side, a value is bound to the name, and a stop binds nothing. -/
theorem compound_assignment_expands {op used : Operator} (hop : op.compound? = some used)
    (spelling : String) (right : Expr) (place place' place'' inner outer outer' : Option Position)
    (machine : Machine) :
    let compound := Expr.binary (.name spelling place) op right outer
    let expansion := Expr.binary (.name spelling place') .assign
      (.binary (.name spelling place'') used right inner) outer'
    let between := right.eval.final machine
    match compound.eval machine, expansion.eval machine with
    | .ok value after, .ok value' after' =>
      value' = value ∧ after' = after ∧ after.bindings = between.bindings.insert spelling value
    | .error halt after, .error halt' after' =>
      halt'.bare = halt.bare ∧ after' = after ∧ after.bindings = between.bindings
    | _, _ => False := by
  intro compound expansion between
  have hused : used.isAssignment = false := by
    cases op <;> cases hop <;> rfl
  have hbindings := Expr.bindings_of_compound hop spelling place outer right machine
  -- both read the name, evaluate the right side and apply the operator; only the blame differs
  have hagrees : Agrees compound.eval expansion.eval := by
    rw [Expr.eval_compound hop, Expr.eval_expansion hused]
    exact ((agrees_locate _ _).bind _).locate _ _
  obtain ⟨value, value', after, after', hcompound, hexpansion, hvalue, hafter⟩ |
    ⟨halt, halt', after, after', hcompound, hexpansion, hhalt, hafter⟩ := Couple.cases hagrees rfl
  · rw [hcompound] at hbindings
    rw [hcompound, hexpansion]
    exact ⟨hvalue, hafter, hbindings⟩
  · rw [hcompound] at hbindings
    rw [hcompound, hexpansion]
    exact ⟨hhalt, hafter, hbindings⟩

/-- `s -= (s = "b")` fails, with or without being expanded, since strings cannot be subtracted; what
is left is bound by the right side. -/
theorem compound_assignment_expands_on_failing_rebinding :
    let machine : Machine :=
      { bindings := .ofList [("s", .string ⟨"a", 0⟩)], nextHandle := 2 }
    let right : Expr := .binary (.name "s" none) .assign (.string ⟨"b", 1⟩ none) none
    let compound : Expr := .binary (.name "s" none) .subAssign right none
    let expansion : Expr :=
      .binary (.name "s" none) .assign (.binary (.name "s" none) .minus right none) none
    Operator.compound? .subAssign = some .minus ∧
    ∃ halt halt' after,
      compound.eval machine = .error halt after ∧ expansion.eval machine = .error halt' after ∧
      halt.bare = .failed { cause := .operands .minus .number ["string", "string"] } ∧
      halt'.bare = halt.bare ∧ after.bindings.get? "s" = some (.string ⟨"b", 1⟩) := by
  intro machine right compound expansion
  have hcompound : ∃ halt after, compound.eval machine = .error halt after ∧
      halt.bare = .failed { cause := .operands .minus .number ["string", "string"] } :=
    ⟨_, _, rfl, rfl⟩
  have hexpansion : ∃ halt after, expansion.eval machine = .error halt after := ⟨_, _, rfl⟩
  -- the right side rebinds the name before the operator fails on the value read earlier
  have hright : (right.eval.final machine).bindings.get? "s" = some (.string ⟨"b", 1⟩) := rfl
  obtain ⟨halt, after, hcompound, hbare⟩ := hcompound
  obtain ⟨halt', after', hexpansion⟩ := hexpansion
  have hop : Operator.compound? .subAssign = some .minus := rfl
  have hexpands := compound_assignment_expands hop "s" right none none none none none none machine
  dsimp only at hexpands
  rw [hcompound, hexpansion] at hexpands
  obtain ⟨hsame, rfl, hbindings⟩ := hexpands
  exact ⟨hop, halt, halt', after', hcompound, hexpansion, hbare, hsame, by rw [hbindings, hright]⟩

end Scriptlet
