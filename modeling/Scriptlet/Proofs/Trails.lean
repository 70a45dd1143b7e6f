import Scriptlet.Proofs.Handles
import Scriptlet.Proofs.Ledger

/-! # Trails

A run leaves a trail: every single evaluation of a node with its value, in the order in which they
are finished, also if the run stops early. Whatever is run, its trail can be added to a ledger.

* `Expr.trail`, `Stmt.trail`: the evaluations of a run.
* `Run.Logs`: the trail of a computation can be added to a ledger.
* `Expr.logs_eval`, `Stmt.logs_executeAll`: so it is for expressions and programs. -/

namespace Scriptlet

open Sight

/-- The evaluations that are finished when an expression is evaluated: those of its parts, up to the
first one that stops, and if none does, its own. The left side of a plain assignment is not
evaluated. -/
def Expr.trail (expr : Expr) (machine : Machine) : List Sight :=
  (match expr with
    | .unary _ operand _ | .typeOf operand _ => operand.trail machine
    | .binary left op right _ =>
      if op.isAssignment && !left.isName then []
      else if op = .assign then right.trail machine
      else left.trail machine ++ left.eval.behind (fun _ => right.trail) machine
    | _ => []) ++
    expr.eval.behind (fun value _ => [.evaluated expr value]) machine

/-- The evaluations that are finished when an expression is evaluated that may be nested too
deeply. -/
def Expr.trailWithin (limit : Nat) (expr : Expr) (machine : Machine) : List Sight :=
  if limit < expr.depth then [] else expr.trail machine

namespace Stmt

mutual

/-- The evaluations that are finished when a statement is executed. -/
def trail (settings : Settings) : Stmt → Machine → List Sight
  | .expression expr _, machine | .print expr _, machine | .ret expr _, machine =>
    expr.trailWithin settings.limit machine
  | .block body _, machine => trailAll settings body { machine with depth := machine.depth + 1 }
  | .cond condition body _, machine =>
    condition.trailWithin settings.limit machine ++
      (holds settings condition).behind
        (fun truth => if truth then body.trail settings else fun _ => []) machine
  | .condElse condition body other _, machine =>
    condition.trailWithin settings.limit machine ++
      (holds settings condition).behind
        (fun truth => if truth then body.trail settings else other.trail settings) machine
  | .misplaced _, _ => []

/-- The evaluations that are finished when statements are executed in order. -/
def trailAll (settings : Settings) : List Stmt → Machine → List Sight
  | [], _ => []
  | first :: rest, machine =>
    (first.trace settings >>= fun _ => count).behind
      (fun _ machine' => first.trail settings machine' ++
        (first.execute settings).behind (fun _ => trailAll settings rest) machine') machine

end

end Stmt

namespace Run

variable {α β : Type}

/-- Whenever entries account for the session that a machine starts with, and some strings are among
them, the evaluations of a computation can be added, and the entries then account for the machine
that is left. -/
def Logs (known : List StringValue) (before : List Sight → Prop) (run : Run α)
    (trail : Machine → List Sight) (after : α → List Sight → Prop) : Prop :=
  ∀ past start, Ledger past start.kept → known ⊆ strings past → before past →
    Triple (fun machine => machine = start) run
      (fun result machine =>
        Ledger (past ++ trail start) machine.kept ∧ after result (past ++ trail start))
      fun _ machine => Ledger (past ++ trail start) machine.kept

/-- A computation leaves what a session keeps as it is. -/
def IsIdle (run : Run α) : Prop :=
  ∀ session, Triple (fun machine => machine.kept = session) run
    (fun _ machine => machine.kept = session) fun _ machine => machine.kept = session

section Logs

variable {known : List StringValue} {before : List Sight → Prop} {run : Run α} {next : α → Run β}
  {first trail : Machine → List Sight} {mid : α → List Sight → Prop}
  {after : β → List Sight → Prop}

/-- Strings that came to light stay so. -/
theorem known_append {past : List Sight} (h : known ⊆ strings past) (later : List Sight) :
    known ⊆ strings (past ++ later) := by
  rw [strings_append]
  exact fun value hvalue => List.mem_append_left _ (h hvalue)

/-- One computation behind another. -/
theorem Logs.bind {second : α → Machine → List Sight} (hrun : Logs known before run first mid)
    (hnext : ∀ result, Logs known (mid result) (next result) (second result) after) :
    Logs known before (run >>= next) (fun machine => first machine ++ run.behind second machine)
      after := by
  rintro past start hledger hknown hbefore machine rfl
  have hfirst := hrun past machine hledger hknown hbefore machine rfl
  cases hfound : run machine with
  | ok result machine' =>
    rw [hfound] at hfirst
    rw [bind_of_ok hfound]
    dsimp only
    rw [behind_of_ok hfound, ← List.append_assoc]
    -- the second computation starts from the entries of the first as well
    exact hnext result _ machine' hfirst.1 (known_append hknown _) hfirst.2 machine' rfl
  | error halt machine' =>
    rw [hfound] at hfirst
    rw [bind_of_error hfound]
    dsimp only
    rw [behind_of_error hfound, List.append_nil]
    exact hfirst

/-- The same trail, written in another way. -/
theorem Logs.congr {after : α → List Sight → Prop} {trail' : Machine → List Sight}
    (h : Logs known before run trail after) (htrail : ∀ machine, trail' machine = trail machine) :
    Logs known before run trail' after := by
  intro past start
  rw [htrail]
  exact h past start

/-- A computation behind another that brings nothing to light. -/
theorem Logs.followed (hrun : Logs known before run trail mid)
    (hnext : ∀ result, Logs known (mid result) (next result) (fun _ => []) after) :
    Logs known before (run >>= next) trail after := by
  refine (hrun.bind hnext).congr fun machine => ?_
  cases hfound : run machine with
  | ok result machine' => rw [behind_of_ok hfound, List.append_nil]
  | error halt machine' => rw [behind_of_error hfound, List.append_nil]

/-- More may be assumed and less concluded. -/
theorem Logs.weaken {before' : List Sight → Prop} {after after' : α → List Sight → Prop}
    (h : Logs known before run trail after) (hbefore : ∀ past, before' past → before past)
    (hafter : ∀ result past, after result past → after' result past) :
    Logs known before' run trail after' :=
  fun past start hledger hknown hpast =>
    (h past start hledger hknown (hbefore past hpast)).weaken (fun _ => id)
      (fun result _ hmachine => ⟨hmachine.1, hafter result _ hmachine.2⟩) fun _ _ => id

/-- What stays true when entries are added is true afterwards. -/
theorem Logs.frame {after : α → List Sight → Prop} (h : Logs known (fun _ => True) run trail after)
    {stays : List Sight → Prop} (hstays : ∀ past later, stays past → stays (past ++ later)) :
    Logs known stays run trail fun result past => after result past ∧ stays past :=
  fun past start hledger hknown hpast =>
    (h past start hledger hknown trivial).weaken (fun _ => id)
      (fun _ _ hmachine => ⟨hmachine.1, hmachine.2, hstays past _ hpast⟩) fun _ _ => id

/-- How a stop is reported does not matter to what is logged. -/
theorem Logs.adaptExcept {after : α → List Sight → Prop} (h : Logs known before run trail after)
    (report : Halt → Halt) : Logs known before (EStateM.adaptExcept report run) trail after :=
  fun past start hledger hknown hpast => (h past start hledger hknown hpast).adaptExcept

/-- One level deeper the same is logged. -/
theorem Logs.nested {after : α → List Sight → Prop} (h : Logs known before run trail after) :
    Logs known before (nested run) (fun machine => trail { machine with depth := machine.depth + 1 })
      after := by
  rintro past start hledger hknown hbefore machine rfl
  -- the depth is no part of what is kept, so opening a block needs no new entry
  have hrun := h past { machine with depth := machine.depth + 1 } hledger hknown hbefore _ rfl
  unfold Run.nested
  cases hfound : run { machine with depth := machine.depth + 1 } with
  | ok result machine' =>
    rw [hfound] at hrun
    exact hrun
  | error halt machine' =>
    rw [hfound] at hrun
    exact hrun

/-- To stop logs nothing. -/
theorem logs_throw {after : α → List Sight → Prop} (halt : Halt) :
    Logs known before (throw halt) (fun _ => []) after := by
  intro past start hledger _ _
  rw [List.append_nil]
  exact triple_throw fun _ hmachine => hmachine ▸ hledger

/-- To answer logs nothing. -/
theorem logs_pure {after : α → List Sight → Prop} {result : α}
    (h : ∀ past, before past → after result past) :
    Logs known before (pure result) (fun _ => []) after := by
  intro past start hledger _ hbefore
  rw [List.append_nil]
  exact triple_pure fun _ hmachine => ⟨hmachine ▸ hledger, h past hbefore⟩

/-- A computation that leaves what a session keeps as it is brings nothing to light. -/
theorem IsIdle.logs (h : IsIdle run) : Logs known before run (fun _ => []) fun _ => before := by
  intro past start hledger _ hbefore
  rw [List.append_nil]
  exact (h start.kept).weaken (fun _ hmachine => hmachine ▸ rfl)
    (fun _ _ hkept => ⟨hkept ▸ hledger, hbefore⟩) fun _ _ hkept => hkept ▸ hledger

end Logs

/-- To stop leaves what a session keeps. -/
theorem isIdle_throw (halt : Halt) : IsIdle (throw halt : Run α) :=
  fun _ => triple_throw fun _ => id

/-- To answer leaves what a session keeps. -/
theorem isIdle_pure (result : α) : IsIdle (pure result) :=
  fun _ => triple_pure fun _ => id

/-- To note an event leaves what a session keeps. -/
theorem isIdle_record (event : Event) : IsIdle (record event) :=
  fun _ => triple_modify fun _ => id

/-- An answer that is known, or a cause, leaves what a session keeps. -/
theorem isIdle_ofExcept (answer : Except Cause α) : IsIdle (ofExcept answer) :=
  fun _ => triple_ofExcept (fun _ _ _ => id) fun _ _ _ => id

/-- Two idle computations in turn are idle. -/
theorem IsIdle.bind {run : Run α} {next : α → Run β} (hrun : IsIdle run)
    (hnext : ∀ result, IsIdle (next result)) : IsIdle (run >>= next) :=
  fun session => (hrun session).bind fun result => hnext result session

end Run

open Run

/-! ## What is evaluated -/

namespace Expr

/-- The last entry is the evaluation of an expression. -/
def EndsWith (expr : Expr) (value : Value) (past : List Sight) : Prop :=
  past.getLast? = some (.evaluated expr value)

variable {known : List StringValue}

/-- A node is evaluated by a computation that evaluates its parts and another that comes to its
value; that one may stop, or else an entry can be added for it. -/
theorem logs_node {α : Type} {expr : Expr} {run : Run α} {finish : α → Run Value}
    {parts : Machine → List Sight} {mid : α → List Sight → Prop} {report : Halt → Halt}
    (heval : expr.eval = EStateM.adaptExcept report (run >>= finish))
    (htrail : ∀ machine, expr.trail machine =
      parts machine ++ expr.eval.behind (fun value _ => [.evaluated expr value]) machine)
    (hrun : Logs known (fun _ => True) run parts mid)
    (hfinish : ∀ result past machine, Ledger past machine.kept → known ⊆ Sight.strings past →
      mid result past →
      match finish result machine with
      | .ok value machine' => Ledger (past ++ [.evaluated expr value]) machine'.kept
      | .error _ machine' => machine'.kept = machine.kept) :
    Logs known (fun _ => True) expr.eval expr.trail expr.EndsWith := by
  -- the parts are logged first, and the node itself only if its last step returns
  have hnode : Logs known (fun _ => True) (run >>= finish)
      (fun machine => parts machine ++
        run.behind (fun result => (finish result).behind fun value _ => [.evaluated expr value])
          machine)
      expr.EndsWith := by
    refine hrun.bind fun result => ?_
    rintro past start hledger hknown hmid machine rfl
    have hlast := hfinish result past machine hledger hknown hmid
    cases hfound : finish result machine with
    | ok value machine' =>
      rw [hfound] at hlast
      rw [behind_of_ok hfound]
      exact ⟨hlast, List.getLast?_concat⟩
    | error halt machine' =>
      rw [hfound] at hlast
      rw [behind_of_error hfound, List.append_nil]
      dsimp only at hlast ⊢
      rw [hlast]
      exact hledger
  rw [heval]
  refine (hnode.adaptExcept report).congr fun machine => ?_
  rw [htrail, heval]
  congr 1
  -- seen behind the node is what is seen behind its last step
  unfold Run.behind EStateM.adaptExcept
  cases hfound : run machine with
  | ok result machine' =>
    dsimp only
    rw [bind_of_ok hfound]
    cases finish result machine' <;> rfl
  | error halt machine' =>
    dsimp only
    rw [bind_of_error hfound]

/-- An operation yields no string or one with the handle that is free. -/
theorem handle_of_toValue {yield : Yield} {handle : Nat} {string : StringValue}
    (h : (yield.toValue handle).string? = some string) : string.handle = handle := by
  cases yield with
  | number => cases h
  | boolean => cases h
  | newString content =>
    cases h
    rfl

/-- An entry can be added for a node whose operation took the next free handle. -/
theorem ledger_computed {expr : Expr} {past : List Sight} {session : Session}
    (h : Ledger past session) (hexpr : expr.passesOn = false) (yield : Yield) :
    Ledger (past ++ [.evaluated expr (yield.toValue session.nextHandle)])
      ⟨rebind session.bindings (.evaluated expr (yield.toValue session.nextHandle)),
        session.nextHandle + 1⟩ := by
  refine h.concat (.computed hexpr fun string hstring => ?_) rfl (Nat.le_succ _) ?_
  · rw [handle_of_toValue hstring]
    exact h.isNew (Nat.le_refl _)
  · intro string hstring
    rw [handle_of_toValue hstring]
    exact Nat.lt_succ_self _

/-- Evaluates two operands. -/
def both (left right : Run Value) : Run (Value × Value) := do
  let leftValue ← left
  let rightValue ← right
  return (leftValue, rightValue)

/-- An operator is applied to both values behind both computations. -/
theorem applied_eq (op : Operator) (left right : Run Value) :
    applied op left right = both left right >>= fun operands =>
      Run.ofExcept (op.binary operands.1 operands.2) >>= Run.settle := by
  simp only [applied, both, bind_assoc, pure_bind]

/-- To evaluate a name is to look it up. -/
theorem eval_name (spelling : String) (place : Option Position) :
    (Expr.name spelling place).eval = Run.load spelling :=
  rfl

/-- Two operands in turn log the evaluations of the first and then those of the second. -/
theorem logs_both {left right : Expr}
    (hleft : Logs known (fun _ => True) left.eval left.trail left.EndsWith)
    (hright : Logs known (fun _ => True) right.eval right.trail right.EndsWith) :
    Logs known (fun _ => True) (both left.eval right.eval)
      (fun machine => left.trail machine ++ left.eval.behind (fun _ => right.trail) machine)
      fun _ _ => True := by
  refine hleft.bind fun leftValue => ?_
  refine Logs.followed (hright.weaken (fun _ _ => trivial) fun _ _ => id) fun rightValue => ?_
  exact logs_pure fun _ _ => trivial

/-- An operation whose value is bound to nothing. -/
theorem ledger_settle {expr : Expr} {past : List Sight} {machine : Machine}
    (h : Ledger past machine.kept) (hexpr : expr.passesOn = false)
    (hbinds : ∀ value, (Sight.evaluated expr value).binds? = none) (answer : Except Cause Yield) :
    match (Run.ofExcept answer >>= Run.settle) machine with
    | .ok value machine' => Ledger (past ++ [.evaluated expr value]) machine'.kept
    | .error _ machine' => machine'.kept = machine.kept := by
  cases answer with
  | error cause => rfl
  | ok yield =>
    have hledger := ledger_computed h hexpr yield
    rw [rebind, hbinds] at hledger
    exact hledger

/-- An operator that does not assign binds nothing. -/
theorem binds?_binary {op : Operator} (h : op.isAssignment = false) (left right : Expr)
    (place : Option Position) (value : Value) :
    (Sight.evaluated (.binary left op right place) value).binds? = none := by
  cases left with
  | name spelling place' => rw [Sight.binds?, h]; rfl
  | _ => rfl

/-- A node without parts, which yields a value and changes nothing. -/
theorem logs_leaf {expr : Expr} {found : Machine → Value}
    (heval : ∀ machine, expr.eval machine = .ok (found machine) machine)
    (htrail : ∀ machine, expr.trail machine = [.evaluated expr (found machine)])
    (hbinds : ∀ value, (Sight.evaluated expr value).binds? = none)
    (haccounted : ∀ past machine, Ledger past machine.kept → known ⊆ Sight.strings past →
      Accounted past (.evaluated expr (found machine)) ∧
        ∀ string ∈ (found machine).string?, string ∈ Sight.strings past) :
    Logs known (fun _ => True) expr.eval expr.trail expr.EndsWith := by
  rintro past start hledger hknown - machine rfl
  obtain ⟨haccounted, hstring⟩ := haccounted past machine hledger hknown
  rw [heval, htrail]
  refine ⟨hledger.concat haccounted ?_ (Nat.le_refl _) (hledger.below_of_known hstring),
    List.getLast?_concat⟩
  rw [rebind, hbinds]

/-- A node that stops at once. -/
theorem logs_stop {expr : Expr} (heval : ∀ machine, ∃ halt, expr.eval machine = .error halt machine)
    (htrail : ∀ machine, expr.trail machine =
      [] ++ expr.eval.behind (fun value _ => [.evaluated expr value]) machine) :
    Logs known (fun _ => True) expr.eval expr.trail expr.EndsWith := by
  rintro past start hledger - - machine rfl
  obtain ⟨halt, hhalt⟩ := heval machine
  rw [htrail, behind_of_error hhalt, hhalt]
  simpa using hledger

/-- Of an assignment to what is no name nothing but its own end can be seen. -/
theorem trail_noTarget {left : Expr} {op : Operator} (hop : op.isAssignment = true)
    (hleft : left.isName = false) (right : Expr) (place : Option Position) (machine : Machine) :
    (Expr.binary left op right place).trail machine =
      [] ++ (Expr.binary left op right place).eval.behind
        (fun value _ => [.evaluated (.binary left op right place) value]) machine := by
  rw [Expr.trail, hop, hleft]
  rfl

/-- An operator that is no plain assignment evaluates both of its sides. -/
theorem trail_both {left : Expr} {op : Operator} (htarget : op.isAssignment = true → left.isName = true)
    (hop : op ≠ .assign) (right : Expr) (place : Option Position) (machine : Machine) :
    (Expr.binary left op right place).trail machine =
      (left.trail machine ++ left.eval.behind (fun _ => right.trail) machine) ++
        (Expr.binary left op right place).eval.behind
          (fun value _ => [.evaluated (.binary left op right place) value]) machine := by
  have hevaluated : ¬ (op.isAssignment && !left.isName) = true := by
    rw [Bool.and_eq_true, Bool.not_eq_true', not_and, Bool.not_eq_false]
    exact htarget
  rw [Expr.trail, if_neg hevaluated, if_neg hop]

/-- The value of an assignment is bound to its name. -/
theorem rebind_assign {op : Operator} (hop : op.isAssignment = true) (bindings : Bindings Value)
    (spelling : String) (place place' : Option Position) (right : Expr) (value : Value) :
    rebind bindings (.evaluated (.binary (.name spelling place) op right place') value) =
      bindings.insert spelling value := by
  rw [rebind, Sight.binds?, if_pos hop]

/-- A name logs its own evaluation. -/
theorem logs_name (spelling : String) (place : Option Position) :
    Logs known (fun _ => True) (Expr.name spelling place).eval (Expr.name spelling place).trail
      (Expr.name spelling place).EndsWith := by
  refine logs_leaf (fun _ => rfl) (fun _ => rfl) (fun _ => rfl) fun past machine hledger _ => ?_
  have hread : (machine.bindings.get? spelling).getD (.number 0) = (replay past).read spelling := by
    rw [← hledger.replayed]
    rfl
  rw [hread]
  exact ⟨.name, fun string hstring => mem_strings_of_read hstring⟩

/-- What a compound assignment stores comes from the value of its name and that of its right side. -/
theorem assigned_of_compound {op used : Operator} (h : op.compound? = some used) (spelling : String)
    (place : Option Position) (right : Run Value) :
    assigned op spelling right = both (Expr.name spelling place).eval right >>= fun operands =>
      Run.ofExcept (used.binary operands.1 operands.2) >>= Run.settle := by
  rw [← applied_eq, assigned, h, applied, eval_name]

/-- An operation whose value is bound to a name. -/
theorem ledger_store {op : Operator} (hop : op.isAssignment = true) (hplain : op ≠ .assign)
    {spelling : String} {place place' : Option Position} {right : Expr} {past : List Sight}
    {machine : Machine} (h : Ledger past machine.kept) (answer : Except Cause Yield) :
    match ((Run.ofExcept answer >>= Run.settle) >>= fun value =>
        Run.store spelling value >>= fun _ => pure value) machine with
    | .ok value machine' =>
      Ledger (past ++ [.evaluated (.binary (.name spelling place) op right place') value])
        machine'.kept
    | .error _ machine' => machine'.kept = machine.kept := by
  cases answer with
  | error cause => rfl
  -- the value was made or is no string, so binding it adds nothing but the name
  | ok yield =>
    have hmakes : (Expr.binary (.name spelling place) op right place').passesOn = false :=
      beq_false_of_ne hplain
    have hledger := ledger_computed h hmakes yield
    rw [rebind_assign hop] at hledger
    exact hledger

/-- **What is evaluated with an expression can be added to a ledger**, and its own evaluation comes
last. -/
theorem logs_eval {expr : Expr} (h : expr.strings ⊆ known) :
    Logs known (fun _ => True) expr.eval expr.trail expr.EndsWith := by
  induction expr using eval_induction with
  | name spelling place => exact logs_name spelling place
  | number value place =>
    refine logs_leaf (fun _ => rfl) (fun _ => rfl) (fun _ => rfl) fun past machine _ _ => ?_
    exact ⟨.computed rfl nofun, nofun⟩
  | string value place =>
    refine logs_leaf (fun _ => rfl) (fun _ => rfl) (fun _ => rfl) fun past machine _ hknown => ?_
    have hvalue : value ∈ Sight.strings past := hknown (h List.mem_cons_self)
    refine ⟨.string hvalue, ?_⟩
    rintro string ⟨⟩
    exact hvalue
  | unary op operand place ih =>
    refine logs_node (by rw [Expr.eval]) (fun _ => by rw [Expr.trail]) (ih h) ?_
    intro value past machine hledger _ _
    exact ledger_settle hledger rfl (fun _ => rfl) _
  | typeOf operand place ih =>
    refine logs_node (by rw [Expr.eval]) (fun _ => by rw [Expr.trail]) (ih h) ?_
    intro value past machine hledger _ _
    exact ledger_settle hledger rfl (fun _ => rfl) (.ok _)
  | assign spelling place op right place' hop ih =>
    have hright := ih fun value hvalue => h (List.mem_append_right _ hvalue)
    have heval := eval_assign hop spelling place place' right
    by_cases hplain : op = .assign
    · -- the value was the last to come to light, and is passed on
      subst hplain
      refine logs_node heval (fun _ => rfl) hright ?_
      intro value past machine hledger _ hlast
      have hknown : ∀ string ∈ value.string?, string ∈ Sight.strings past := fun string hstring =>
        List.mem_filterMap.2 ⟨_, List.mem_of_getLast? hlast, hstring⟩
      exact hledger.concat (.assign hlast) (rebind_assign hop _ _ _ _ _ _).symm (Nat.le_refl _)
        (hledger.below_of_known hknown)
    -- a compound assignment evaluates the name and the right side, and makes its value
    · obtain ⟨used, hused⟩ : ∃ used, op.compound? = some used := by
        rw [Operator.isAssignment, beq_false_of_ne hplain, Bool.false_or] at hop
        exact Option.isSome_iff_exists.1 hop
      rw [assigned_of_compound hused spelling place, bind_assoc] at heval
      refine logs_node heval (trail_both (fun _ => rfl) hplain right place')
        (logs_both (logs_name spelling place) hright) ?_
      intro operands past machine hledger _ _
      exact ledger_store hop hplain hledger _
  | noTarget left op right place hop hleft =>
    have hname : left.isName = false := by
      cases left with
      | name => cases hleft
      | _ => rfl
    refine logs_stop (fun machine => ?_) (trail_noTarget hop hname right place)
    rw [eval_noTarget hop hleft]
    exact ⟨_, rfl⟩
  | binary left op right place hop ihleft ihright =>
    have hleft := ihleft fun value hvalue => h (List.mem_append_left _ hvalue)
    have hright := ihright fun value hvalue => h (List.mem_append_right _ hvalue)
    have heval := eval_binary hop left right place
    have hplain : op ≠ .assign := by
      rintro rfl
      cases hop
    rw [applied_eq] at heval
    refine logs_node heval (trail_both (fun hassign => ?_) hplain right place)
      (logs_both hleft hright) ?_
    · rw [hop] at hassign
      cases hassign
    · intro operands past machine hledger _ _
      have hmakes : (Expr.binary left op right place).passesOn = false := beq_false_of_ne hplain
      exact ledger_settle hledger hmakes (binds?_binary hop left right place) _
  | gap op right place hop =>
    refine logs_stop (fun machine => ?_) (trail_noTarget hop rfl right place)
    rw [eval_gap hop]
    exact ⟨_, rfl⟩
  | trailing operand op place => exact logs_stop (fun _ => ⟨_, rfl⟩) fun _ => rfl
  | misplaced form rendering place => exact logs_stop (fun _ => ⟨_, rfl⟩) fun _ => rfl
  | absent => exact logs_stop (fun _ => ⟨_, rfl⟩) fun _ => rfl

/-- An expression logs its evaluations within a limit, and its value is among them. -/
theorem logs_evalWithin {expr : Expr} (h : expr.strings ⊆ known) (limit : Nat) :
    Logs known (fun _ => True) (expr.evalWithin limit) (expr.trailWithin limit)
      fun value past => value ∈ past.map Sight.value := by
  by_cases hdeep : limit < expr.depth
  · rw [evalWithin, if_pos hdeep]
    refine (logs_throw _).congr fun machine => ?_
    rw [trailWithin, if_pos hdeep]
  · rw [evalWithin, if_neg hdeep]
    refine ((logs_eval h).weaken (fun _ => id) ?_).congr fun machine => ?_
    · intro value past hlast
      exact List.mem_map_of_mem (List.mem_of_getLast? hlast)
    · rw [trailWithin, if_neg hdeep]

end Expr

namespace Stmt

variable {known : List StringValue} {settings : Settings}

/-- To trace a statement leaves what a session keeps. -/
theorem isIdle_trace (stmt : Stmt) : IsIdle (stmt.trace settings) := by
  refine IsIdle.bind (fun _ => triple_get fun _ => id) fun machine => ?_
  split
  · refine (isIdle_record _).bind fun _ => ?_
    split
    · exact isIdle_throw _
    · split
      · exact isIdle_record _
      · exact isIdle_throw _
  · exact isIdle_pure _

/-- To count a statement leaves what a session keeps. -/
theorem isIdle_count : IsIdle count :=
  fun _ => triple_modify fun _ => id

/-- A condition logs the evaluations of its expression. -/
theorem logs_holds {condition : Expr} (h : condition.strings ⊆ known) :
    Logs known (fun _ => True) (holds settings condition) (condition.trailWithin settings.limit)
      fun _ _ => True := by
  refine (Expr.logs_evalWithin h settings.limit).followed fun value => ?_
  split
  · exact logs_pure fun _ _ => trivial
  · exact logs_throw _

/-- A result came to light. -/
def IsShown (result : Option Value) (past : List Sight) : Prop :=
  ∀ value ∈ result, value ∈ past.map Sight.value

/-- To have no result shows nothing that did not come to light. -/
theorem isShown_none (past : List Sight) : IsShown none past := by
  intro value hvalue
  cases hvalue

/-- A result that came to light stays so. -/
theorem isShown_append {result : Option Value} (past later : List Sight)
    (h : IsShown result past) : IsShown result (past ++ later) := by
  intro value hvalue
  rw [List.map_append]
  exact List.mem_append_left _ (h value hvalue)

/-- To have no result logs nothing. -/
theorem logs_none {before : List Sight → Prop} :
    Logs known before (pure none) (fun _ => []) IsShown :=
  logs_pure fun past _ => isShown_none past

mutual

/-- What is evaluated with a statement can be added to a ledger. -/
theorem logs_execute : ∀ (stmt : Stmt), stmt.strings ⊆ known →
    Logs known (fun _ => True) (stmt.execute settings) (stmt.trail settings) IsShown
  | .expression expr _, h => by
    rw [execute]
    refine ((Expr.logs_evalWithin h settings.limit).followed fun value => ?_).congr fun _ => ?_
    · refine logs_pure fun past hvalue => ?_
      rintro _ ⟨⟩
      exact hvalue
    · rw [trail]
  | .print expr _, h => by
    rw [execute]
    refine ((Expr.logs_evalWithin h settings.limit).followed fun value => ?_).congr fun _ => ?_
    · exact (isIdle_record _).logs.followed fun _ => logs_none
    · rw [trail]
  | .ret expr _, h => by
    rw [execute_ret]
    refine ((Expr.logs_evalWithin h settings.limit).followed fun value => ?_).congr fun _ => ?_
    · exact (isIdle_ofExcept _).logs.followed fun _ => logs_throw _
    · rw [trail]
  | .block body _, h => by
    rw [execute]
    refine ((logs_executeAll body h).nested.followed fun _ => logs_none).congr fun _ => ?_
    rw [trail]
  | .cond condition body _, h => by
    -- the strings of the condition and those of the body are all known
    rw [strings, List.append_subset] at h
    rw [execute]
    refine ((logs_holds h.1).bind fun truth => ?_).congr fun _ => by rw [trail]
    cases truth with
    | true => exact (logs_execute body h.2).followed fun _ => logs_none
    | false => exact logs_none
  | .condElse condition body other _, h => by
    rw [strings, List.append_subset, List.append_subset] at h
    rw [execute]
    refine ((logs_holds h.1.1).bind fun truth => ?_).congr fun _ => by rw [trail]
    cases truth with
    | true => exact (logs_execute body h.1.2).followed fun _ => logs_none
    | false => exact (logs_execute other h.2).followed fun _ => logs_none
  | .misplaced expr, _ => by
    rw [execute]
    refine Logs.congr ?_ fun _ => by rw [trail]
    split
    · exact logs_throw _
    · exact logs_throw _

/-- **What is evaluated with statements in order can be added to a ledger.** -/
theorem logs_executeAll : ∀ (row : List Stmt), stringsAll row ⊆ known →
    Logs known (fun _ => True) (executeAll settings row) (trailAll settings row) IsShown
  | [], _ => by
    rw [executeAll]
    exact logs_none.congr fun _ => by rw [trailAll]
  | first :: rest, h => by
    rw [stringsAll, List.append_subset] at h
    rw [executeAll, ← bind_assoc]
    have hidle : IsIdle (first.trace settings >>= fun _ => count) :=
      (isIdle_trace first).bind fun _ => isIdle_count
    refine (hidle.logs.bind fun _ => ?_).congr fun machine => by rw [trailAll, List.nil_append]
    have hrest (result : Option Value) : Logs known (IsShown result)
        (executeAll settings rest >>= fun last => pure (last.or result)) (trailAll settings rest)
        IsShown := by
      refine ((logs_executeAll rest h.2).frame isShown_append).followed fun last => ?_
      refine logs_pure fun past hshown value hvalue => ?_
      -- the result is that of the last statement, or else one that was shown before
      rcases Option.or_eq_some_iff.1 hvalue with hvalue | ⟨-, hvalue⟩
      · exact hshown.1 value hvalue
      · exact hshown.2 value hvalue
    refine (((logs_execute first h.1).adaptExcept _).bind hrest).congr fun machine' => ?_
    rw [behind_adaptExcept]

end

end Stmt

end Scriptlet
