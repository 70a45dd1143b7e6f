import Scriptlet.Proofs.Likeness
import Scriptlet.Session

/-! # Runs of programs that are alike

Two programs that are alike are run side by side, on machines that some relation holds together. If
every single step keeps the relation, then the runs end in the same way, with results that are alike
or for reasons that are alike, and the relation holds afterwards. Which machines are compared, what
they agree in and what is traced are left open: they are chosen where this is used.

* `Run.Tracks`: two computations end alike.
* `Simulation`: what the single steps have to keep.
* `Simulation.executeAll`: what they keep is kept by every run of statements.
* `Simulation.abreast`: machines that keep abreast of each other, as all uses here need them. -/

namespace Scriptlet

namespace Run

variable {α β γ δ : Type} {like : Likeness} {machines : Machine → Machine → Prop}

/-- From machines that belong together two computations both return, with results that belong
together, or both stop, for reasons that are alike, and the machines still belong together. -/
def Tracks (like : Likeness) (machines : Machine → Machine → Prop) (results : α → β → Prop)
    (run : Run α) (run' : Run β) : Prop :=
  Couple machines run run'
    (fun result result' machine machine' => results result result' ∧ machines machine machine')
    fun halt halt' machine machine' => halt.Like like halt' ∧ machines machine machine'

variable {results : α → β → Prop} {run : Run α} {run' : Run β}

/-- Two answers that belong together track each other. -/
theorem tracks_pure {result : α} {result' : β} (h : results result result') :
    Tracks like machines results (pure result) (pure result') :=
  couple_pure fun _ _ hmachines => ⟨h, hmachines⟩

/-- Two stops that are alike track each other. -/
theorem tracks_throw {halt halt' : Halt} (h : halt.Like like halt') :
    Tracks like machines results (throw halt) (throw halt') :=
  couple_throw fun _ _ hmachines => ⟨h, hmachines⟩

/-- Computations that track each other may be continued by others that do. -/
theorem Tracks.bind {next : α → Run γ} {next' : β → Run δ} {last : γ → δ → Prop}
    (hrun : Tracks like machines results run run')
    (hnext : ∀ result result', results result result' →
      Tracks like machines last (next result) (next' result')) :
    Tracks like machines last (run >>= next) (run' >>= next') := by
  refine Couple.bind hrun ?_
  rintro result result' machine machine' ⟨hresult, hmachines⟩
  exact hnext result result' hresult machine machine' hmachines

/-- Computations after which only the effects of the first are known. -/
theorem Tracks.andThen {next : α → Run γ} {next' : β → Run δ} {last : γ → δ → Prop}
    (hrun : Tracks like machines results run run')
    (hnext : ∀ result result', Tracks like machines last (next result) (next' result')) :
    Tracks like machines last (run >>= next) (run' >>= next') :=
  hrun.bind fun result result' _ => hnext result result'

/-- Computations that track each other still do when each blames one of two nodes that are alike. -/
theorem Tracks.locate (h : Tracks like machines results run run') {node node' : Node}
    (hnode : node.Like like node') :
    Tracks like machines results (EStateM.adaptExcept (Halt.locate node) run)
      (EStateM.adaptExcept (Halt.locate node') run') := by
  refine Couple.adaptExcept h ?_
  rintro halt halt' machine machine' ⟨hhalt, hmachines⟩
  exact ⟨hhalt.locate hnode, hmachines⟩

/-- Computations that track each other still do when each is settled on one of two statements that
are alike. -/
theorem Tracks.settle (h : Tracks like machines results run run') {stmt stmt' : Stmt}
    (hstmt : stmt.Like like stmt') :
    Tracks like machines results (EStateM.adaptExcept (Halt.settle stmt) run)
      (EStateM.adaptExcept (Halt.settle stmt') run') := by
  refine Couple.adaptExcept h ?_
  rintro halt halt' machine machine' ⟨hhalt, hmachines⟩
  exact ⟨hhalt.settle hstmt, hmachines⟩

/-- An answer about operands that are alike is the same on both sides. -/
theorem tracks_ofExcept (answer : Except Cause α) :
    Tracks like machines Eq (ofExcept answer) (ofExcept answer) := by
  cases answer with
  | ok result => exact tracks_pure rfl
  | error cause => exact tracks_throw (.failed ⟨rfl, .none, .none⟩)

/-- Changes that keep machines together track each other. -/
theorem tracks_modify {change change' : Machine → Machine}
    (h : ∀ machine machine', machines machine machine' →
      machines (change machine) (change' machine')) :
    Tracks like machines Eq (modify change) (modify change') :=
  fun machine machine' hmachines => ⟨rfl, h machine machine' hmachines⟩

/-- What looks at its machine first. -/
theorem tracks_get_bind {next : Machine → Run γ} {next' : Machine → Run δ} {last : γ → δ → Prop}
    (h : ∀ machine machine', machines machine machine' →
      Tracks like machines last (next machine) (next' machine')) :
    Tracks like machines last (get >>= next) (get >>= next') :=
  fun machine machine' hmachines => h machine machine' hmachines machine machine' hmachines

end Run

open Run

/-- What the single steps of two runs have to keep, for programs that are alike. -/
structure Simulation (like : Likeness) (machines : Machine → Machine → Prop)
    (settings settings' : Settings) : Prop where
  /-- Strings are the same on one side if they are on the other. -/
  pairing : IsPairing like.handle
  /-- Trees may be nested equally deeply. -/
  limit : settings'.limit = settings.limit
  /-- Blocks are opened and closed together. -/
  nested : ∀ {α β : Type} {results : α → β → Prop} {run : Run α} {run' : Run β},
    Tracks like machines results run run' →
      Tracks like machines results (Run.nested run) (Run.nested run')
  /-- Names that occur have values that are alike. -/
  load : ∀ {name : String}, like.name name →
    Tracks like machines (Value.Like like) (Run.load name) (Run.load name)
  /-- Names that occur can be bound to values that are alike. -/
  store : ∀ {name : String} {value value' : Value}, like.name name → value.Like like value' →
    Tracks like machines Eq (Run.store name value) (Run.store name value')
  /-- New strings are alike. -/
  settle : ∀ yield, Tracks like machines (Value.Like like) (Run.settle yield) (Run.settle yield)
  /-- The same lines are printed. -/
  print : ∀ text,
    Tracks like machines Eq (Run.record (.printed text)) (Run.record (.printed text))
  /-- Statements are counted together. -/
  count : Tracks like machines Eq Stmt.count Stmt.count
  /-- Statements that are alike are traced together, if at all. -/
  trace : ∀ {stmt stmt' : Stmt}, stmt.Like like stmt' →
    Tracks like machines Eq (stmt.trace settings) (stmt'.trace settings')

namespace Simulation

variable {like : Likeness} {machines : Machine → Machine → Prop} {settings settings' : Settings}
  (h : Simulation like machines settings settings')
include h

/-! ## Expressions -/

/-- Operators track each other if their operands do. -/
theorem applied (op : Operator) {left left' right right' : Run Value}
    (hleft : Tracks like machines (Value.Like like) left left')
    (hright : Tracks like machines (Value.Like like) right right') :
    Tracks like machines (Value.Like like) (Expr.applied op left right)
      (Expr.applied op left' right') := by
  refine hleft.bind fun leftValue leftValue' hleftValue => ?_
  refine hright.bind fun rightValue rightValue' hrightValue => ?_
  rw [Operator.binary_eq h.pairing op hleftValue hrightValue]
  refine (tracks_ofExcept _).bind ?_
  rintro yield _ rfl
  exact h.settle yield

/-- Assignments to a name track each other if their right sides do. -/
theorem assigned (op : Operator) {spelling : String} (hname : like.name spelling)
    {right right' : Run Value} (hright : Tracks like machines (Value.Like like) right right') :
    Tracks like machines (Value.Like like) (Expr.assigned op spelling right)
      (Expr.assigned op spelling right') := by
  unfold Expr.assigned
  split
  · exact hright
  · exact h.applied _ (h.load hname) hright

/-- Storing a value and passing it on. -/
theorem stored {spelling : String} (hname : like.name spelling) {run run' : Run Value}
    (hrun : Tracks like machines (Value.Like like) run run') :
    Tracks like machines (Value.Like like)
      (do let value ← run; Run.store spelling value; return value)
      (do let value ← run'; Run.store spelling value; return value) := by
  refine hrun.bind fun value value' hvalue => ?_
  exact (h.store hname hvalue).andThen fun _ _ => tracks_pure hvalue

/-- **Expressions that are alike have values that are alike.** By induction on the expression; an
assignment looks at its left side without evaluating it. -/
theorem eval {expr expr' : Expr} (hexpr : expr.Like like expr') :
    Tracks like machines (Value.Like like) expr.eval expr'.eval := by
  induction hexpr with
  | name hname hplace =>
    rw [Expr.eval, Expr.eval]
    exact (h.load hname).locate (.expression (.name hname hplace))
  | number value hplace =>
    rw [Expr.eval, Expr.eval]
    exact Tracks.locate (tracks_pure (.number value)) (.expression (.number value hplace))
  | string hvalue hplace =>
    rw [Expr.eval, Expr.eval]
    exact Tracks.locate (tracks_pure (.string hvalue)) (.expression (.string hvalue hplace))
  | unary op hoperand hplace ih =>
    rw [Expr.eval, Expr.eval]
    refine Tracks.locate (ih.bind fun value value' hvalue => ?_)
      (.expression (.unary op hoperand hplace))
    rw [Operator.unary_eq op hvalue]
    refine (tracks_ofExcept _).bind ?_
    rintro yield _ rfl
    exact h.settle yield
  | typeOf hoperand hplace ih =>
    rw [Expr.eval, Expr.eval]
    refine Tracks.locate (ih.bind fun value value' hvalue => ?_)
      (.expression (.typeOf hoperand hplace))
    rw [hvalue.kind_eq]
    exact h.settle _
  | binary op hleft hright hplace ihleft ihright =>
    have hnode := Node.Like.expression (Expr.Like.binary op hleft hright hplace)
    cases hop : op.isAssignment with
    | false =>
      rw [Expr.eval_binary hop, Expr.eval_binary hop]
      exact Tracks.locate (h.applied op ihleft ihright) hnode
    | true =>
      have hplace' := hleft.place?
      have htarget := Node.Like.expression hleft
      cases hleft with
      | name hname _ =>
        rw [Expr.eval_assign hop, Expr.eval_assign hop]
        exact Tracks.locate (h.stored hname (h.assigned op hname ihright)) hnode
      | absent =>
        rw [Expr.eval_gap hop, Expr.eval_gap hop]
        exact tracks_throw .absent
      | _ =>
        -- the target is not evaluated, but the fault names it with its place
        rw [Expr.eval_noTarget hop rfl, Expr.eval_noTarget hop rfl]
        exact tracks_throw (.failed ⟨rfl, .some htarget, hplace'⟩)
  | trailing op hoperand hplace ih =>
    rw [Expr.eval, Expr.eval]
    exact Tracks.locate (tracks_throw (.failed ⟨rfl, .none, .none⟩))
      (.expression (.trailing op hoperand hplace))
  | misplaced form rendering hplace =>
    rw [Expr.eval, Expr.eval]
    exact Tracks.locate (tracks_throw (.failed ⟨rfl, .none, .none⟩))
      (.expression (.misplaced form rendering hplace))
  | absent =>
    rw [Expr.eval]
    exact Tracks.locate (tracks_throw .absent) (.expression .absent)

/-- Expressions that are alike track each other within one limit. -/
theorem evalWithin {expr expr' : Expr} (hexpr : expr.Like like expr') :
    Tracks like machines (Value.Like like) (expr.evalWithin settings.limit)
      (expr'.evalWithin settings'.limit) := by
  unfold Expr.evalWithin
  rw [h.limit, hexpr.depth_eq]
  split
  · exact tracks_throw .tooDeep
  · exact h.eval hexpr

/-! ## Statements -/

/-- Conditions that are alike track each other, and come to the same. -/
theorem holds {condition condition' : Expr} (hcondition : condition.Like like condition') :
    Tracks like machines Eq (Stmt.holds settings condition) (Stmt.holds settings' condition') := by
  refine (h.evalWithin hcondition).bind fun value value' hvalue => ?_
  have hnode := Option.Rel.some (Node.Like.expression hcondition)
  cases hvalue with
  | boolean truth => exact tracks_pure rfl
  | number value => exact tracks_throw (.failed ⟨rfl, hnode, hcondition.place?⟩)
  | string hvalue => exact tracks_throw (.failed ⟨rfl, hnode, hcondition.place?⟩)

mutual

/-- Statements that are alike track each other. -/
theorem execute : ∀ {stmt stmt' : Stmt}, stmt.Like like stmt' →
    Tracks like machines (Option.Rel (Value.Like like)) (stmt.execute settings)
      (stmt'.execute settings')
  | _, _, .expression hexpr _ => by
    rw [Stmt.execute, Stmt.execute]
    exact (h.evalWithin hexpr).bind fun value value' hvalue => tracks_pure (.some hvalue)
  | _, _, .print hexpr _ => by
    rw [Stmt.execute, Stmt.execute]
    refine (h.evalWithin hexpr).bind fun value value' hvalue => ?_
    rw [hvalue.printed_eq]
    exact (h.print _).andThen fun _ _ => tracks_pure .none
  | _, _, .ret hexpr _ => by
    rw [Stmt.execute_ret, Stmt.execute_ret]
    refine (h.evalWithin hexpr).bind fun value value' hvalue => ?_
    -- the status is decided by the value, and handles have no say in it
    rw [hvalue.exitStatus_eq]
    refine (tracks_ofExcept _).bind ?_
    rintro status _ rfl
    exact tracks_throw (.ended status hvalue)
  | _, _, .block hbody _ => by
    rw [Stmt.execute, Stmt.execute]
    exact (h.nested (executeAll hbody)).andThen fun _ _ => tracks_pure .none
  | _, _, .cond hcondition hbody _ => by
    rw [Stmt.execute, Stmt.execute]
    refine (h.holds hcondition).bind ?_
    rintro truth _ rfl
    cases truth with
    | true => exact (execute hbody).andThen fun _ _ => tracks_pure .none
    | false => exact tracks_pure .none
  | _, _, .condElse hcondition hbody hother _ => by
    rw [Stmt.execute, Stmt.execute]
    refine (h.holds hcondition).bind ?_
    rintro truth _ rfl
    cases truth with
    | true => exact (execute hbody).andThen fun _ _ => tracks_pure .none
    | false => exact (execute hother).andThen fun _ _ => tracks_pure .none
  | _, _, .misplaced hexpr => by
    rw [Stmt.execute, Stmt.execute, hexpr.isAbsent_eq, hexpr.form_eq]
    split
    · exact tracks_throw .absent
    · exact tracks_throw (.failed ⟨rfl, .some (.statement (.misplaced hexpr)), hexpr.place?⟩)

/-- **Programs that are alike run alike**: they print the same and end in the same way, with results
or for reasons that are alike, on machines that still belong together. -/
theorem executeAll : ∀ {row row' : List Stmt}, Stmt.LikeAll like row row' →
    Tracks like machines (Option.Rel (Value.Like like)) (Stmt.executeAll settings row)
      (Stmt.executeAll settings' row')
  | _, _, .nil => by
    rw [Stmt.executeAll, Stmt.executeAll]
    exact tracks_pure .none
  | _, _, .cons hfirst hrest => by
    rw [Stmt.executeAll, Stmt.executeAll]
    refine (h.trace hfirst).andThen fun _ _ => h.count.andThen fun _ _ => ?_
    refine ((execute hfirst).settle hfirst).bind fun result result' hresult => ?_
    refine (executeAll hrest).bind fun last last' hlast => tracks_pure ?_
    -- which result counts depends on whether there is a later one, not on what it is
    cases hlast with
    | some hlast => exact .some hlast
    | none => exact hresult

end

end Simulation

/-! ## Machines abreast of each other -/

/-- An event after some statements were started before: trace lines are numbered on. -/
def Event.renumber (steps : Nat) : Event → Event
  | .numbered number => .numbered (steps + number)
  | event => event

/-- Where nothing was started before, an event keeps its number. -/
theorem Event.renumber_zero (event : Event) : event.renumber 0 = event := by
  cases event with
  | numbered number => rw [renumber, Nat.zero_add]
  | _ => rfl

/-- Numbering trace lines does not touch what a program prints. -/
@[simp] theorem Event.outputText_renumber (steps : Nat) (event : Event) :
    (event.renumber steps).outputText = event.outputText := by
  cases event <;> rfl

/-- The value that a program reads from a name: names that were never bound read as zero. -/
def Bindings.read (bindings : Bindings Value) (name : String) : Value :=
  (bindings.get? name).getD (.number 0)

/-- What a trace line shows of bindings. -/
def Bindings.shown (bindings : Bindings Value) : List (String × String) :=
  bindings.entries.map fun entry => (entry.1, entry.2.shown)

/-- Trace lines show no more of bindings than the names and how the values are shown. -/
theorem Bindings.line_eq {bindings bindings' : Bindings Value}
    (h : bindings'.shown = bindings.shown) (width : Nat) (text : String) :
    Trace.line width (bindings'.entries.map fun entry => (entry.1, some entry.2)) text =
      Trace.line width (bindings.entries.map fun entry => (entry.1, some entry.2)) text := by
  have hitems (bindings : Bindings Value) :
      Trace.itemsText (bindings.entries.map fun entry => (entry.1, some entry.2)) =
        if bindings.shown.isEmpty then "∅"
        else Text.join " " (bindings.shown.map fun item => item.1 ++ "=" ++ item.2) := by
    simp only [Trace.itemsText, Bindings.shown, List.isEmpty_map, List.map_map]
    rfl
  simp only [Trace.line, Trace.itemsField, hitems, h]

/-- A second machine keeps abreast of a first one: their bindings belong together, they have made
equally many strings since their handles were at two bounds, and the second has done what the first
has, behind the statements and the events of a past of its own. -/
structure Abreast (binds : Bindings Value → Bindings Value → Prop) (bound bound' started : Nat)
    (past : List Event) (machine machine' : Machine) : Prop where
  bindings : binds machine.bindings machine'.bindings
  handles : ∃ made, machine.nextHandle = bound + made ∧ machine'.nextHandle = bound' + made
  steps : machine'.steps = started + machine.steps
  counted : machine'.counted = started + machine.counted
  depth : machine'.depth = machine.depth
  journal : machine'.journal = past ++ machine.journal.map (Event.renumber started)

/-- Bindings that belong together serve programs that are alike: names that occur have values that
are alike, and may be bound to such values. -/
structure Bindings.Serve (like : Likeness) (binds : Bindings Value → Bindings Value → Prop) :
    Prop where
  read : ∀ {bindings bindings' : Bindings Value} {name : String}, binds bindings bindings' →
    like.name name → (bindings.read name).Like like (bindings'.read name)
  insert : ∀ {bindings bindings' : Bindings Value} {name : String} {value value' : Value},
    binds bindings bindings' → like.name name → value.Like like value' →
    binds (bindings.insert name value) (bindings'.insert name value')

section Abreast

variable {like : Likeness} {binds : Bindings Value → Bindings Value → Prop}
  {bound bound' started : Nat} {past : List Event}

/-- Computations that keep abreast still do one level deeper. -/
theorem Abreast.nested {α β : Type} {results : α → β → Prop} {run : Run α} {run' : Run β}
    (h : Tracks like (Abreast binds bound bound' started past) results run run') :
    Tracks like (Abreast binds bound bound' started past) results (Run.nested run)
      (Run.nested run') := by
  have hdepth {machine machine' : Machine} (change : Nat → Nat)
      (habreast : Abreast binds bound bound' started past machine machine') :
      Abreast binds bound bound' started past { machine with depth := change machine.depth }
        { machine' with depth := change machine'.depth } :=
    { habreast with depth := congrArg change habreast.depth }
  refine Couple.nested h ?_ ?_ ?_
  · exact fun _ _ habreast => hdepth (· + 1) habreast
  · exact fun _ _ _ _ hafter => ⟨hafter.1, hdepth (· - 1) hafter.2⟩
  · exact fun _ _ _ _ hstop => ⟨hstop.1, hdepth (· - 1) hstop.2⟩

/-- An event is noted on both machines, on the second under its later number. -/
theorem Abreast.record (event : Event) :
    Tracks like (Abreast binds bound bound' started past) Eq (Run.record event)
      (Run.record (event.renumber started)) := by
  apply tracks_modify
  intro machine machine' habreast
  refine { habreast with journal := ?_ }
  show machine'.journal ++ [event.renumber started] = past ++ (machine.journal ++ [event]).map _
  rw [habreast.journal, List.map_append, List.append_assoc]
  rfl

/-- New strings are alike: both machines have made equally many. -/
theorem Abreast.settle (hnew : ∀ made, like.handle (bound + made) (bound' + made)) (yield : Yield) :
    Tracks like (Abreast binds bound bound' started past) (Value.Like like) (Run.settle yield)
      (Run.settle yield) := by
  rintro machine machine' habreast
  obtain ⟨made, hhandle, hhandle'⟩ := habreast.handles
  refine ⟨?_, { habreast with handles := ⟨made + 1, ?_, ?_⟩ }⟩
  · rw [hhandle, hhandle']
    exact yield.like_toValue (hnew made)
  · show machine.nextHandle + 1 = bound + (made + 1)
    omega
  · show machine'.nextHandle + 1 = bound' + (made + 1)
    omega

/-- Statements are traced together, if the bindings are shown alike or nothing is traced. -/
theorem Abreast.trace {settings : Settings}
    (hshown : settings.verbosity = 0 ∨
      ∀ {bindings bindings'}, binds bindings bindings' → bindings'.shown = bindings.shown)
    {stmt stmt' : Stmt} (hstmt : stmt.Like like stmt') :
    Tracks like (Abreast binds bound bound' started past) Eq (stmt.trace settings)
      (stmt'.trace settings) := by
  apply tracks_get_bind
  intro machine machine' habreast
  -- both machines trace or neither does; only the numbers of the lines differ
  rw [habreast.depth, habreast.steps, hstmt.depth_eq, hstmt.render?_eq]
  split
  · rename_i htraced
    refine (Abreast.record (.numbered machine.steps)).andThen fun _ _ => ?_
    split
    · exact tracks_throw .tooDeep
    · split
      · rcases hshown with hquiet | hshown
        · rw [hquiet] at htraced
          cases htraced
        · dsimp only
          rw [Bindings.line_eq (hshown habreast.bindings)]
          exact Abreast.record (.traced _)
      · exact tracks_throw .gap
  · exact tracks_pure rfl

/-- **Machines that keep abreast of each other stay so** while programs that are alike run on them,
if their bindings serve the programs. -/
theorem Simulation.abreast {settings : Settings} (hpairing : IsPairing like.handle)
    (hnew : ∀ made, like.handle (bound + made) (bound' + made)) (hserve : Bindings.Serve like binds)
    (hshown : settings.verbosity = 0 ∨
      ∀ {bindings bindings'}, binds bindings bindings' → bindings'.shown = bindings.shown) :
    Simulation like (Abreast binds bound bound' started past) settings settings where
  pairing := hpairing
  limit := rfl
  nested := Abreast.nested
  load hname machine machine' habreast := ⟨hserve.read habreast.bindings hname, habreast⟩
  -- to store a value binds the name and notes that it was bound
  store {name} _ _ hname hvalue := by
    refine (tracks_modify ?_).andThen fun _ _ => Abreast.record (.stored name)
    exact fun machine machine' habreast =>
      { habreast with bindings := hserve.insert habreast.bindings hname hvalue }
  settle := Abreast.settle hnew
  print text := Abreast.record (.printed text)
  count := by
    refine (tracks_modify fun machine machine' habreast => ?_).andThen fun _ _ =>
      tracks_modify fun machine machine' habreast => ?_
    · refine { habreast with steps := ?_ }
      show machine'.steps + 1 = started + (machine.steps + 1)
      rw [habreast.steps, Nat.add_assoc]
    · refine { habreast with counted := ?_ }
      show machine'.counted + 1 = started + (machine.counted + 1)
      rw [habreast.counted, Nat.add_assoc]
  trace := Abreast.trace hshown

end Abreast

/-! ## Replies -/

/-- Outcomes of programs that are alike. -/
inductive OutcomeLike (like : Likeness) :
    Except Failure (Option Value) → Except Failure (Option Value) → Prop where
  | result {result result' : Option Value} (hresult : Option.Rel (Value.Like like) result result') :
    OutcomeLike like (.ok result) (.ok result')
  | halted {halt halt' : Halt} (hhalt : halt.Like like halt') :
    OutcomeLike like (.error (.halted halt)) (.error (.halted halt'))

/-- Replies that are alike: the same was printed, equally many statements were started, and the
outcomes are alike. -/
structure Reply.Alike (like : Likeness) (reply reply' : Reply (Option Value)) : Prop where
  output : reply'.output = reply.output
  steps : reply'.steps = reply.steps
  outcome : OutcomeLike like reply.outcome reply'.outcome

/-- What two sessions keep belongs together: their bindings, and how many strings they have made since
their handles were at two bounds. -/
structure Session.Beside (binds : Bindings Value → Bindings Value → Prop) (bound bound' : Nat)
    (session session' : Session) : Prop where
  bindings : binds session.bindings session'.bindings
  handles : ∃ made, session.nextHandle = bound + made ∧ session'.nextHandle = bound' + made

/-- **Programs that are alike get replies that are alike**, and leave sessions that still belong
together. -/
theorem Session.Beside.execute {like : Likeness} {binds : Bindings Value → Bindings Value → Prop}
    {bound bound' : Nat} {settings : Settings} {session session' : Session}
    (h : Session.Beside binds bound bound' session session')
    (hsimulation : Simulation like (Abreast binds bound bound' 0 []) settings settings)
    {program program' : List Stmt} (hprogram : Stmt.LikeAll like program program') :
    (session.execute settings program).Alike like (session'.execute settings program') ∧
      Session.Beside binds bound bound' (session.execute settings program).session
        (session'.execute settings program').session := by
  have hstart : Abreast binds bound bound' 0 [] session.machine session'.machine :=
    ⟨h.bindings, h.handles, rfl, rfl, rfl, rfl⟩
  have hend := hsimulation.executeAll hprogram session.machine session'.machine hstart
  -- behind no past at all, the events are the same
  have hrenumber : Event.renumber 0 = id := funext Event.renumber_zero
  simp only [Session.execute]
  cases hrun : Stmt.executeAll settings program session.machine <;>
    cases hrun' : Stmt.executeAll settings program' session'.machine <;>
    rw [hrun, hrun'] at hend
  · obtain ⟨hresult, hmachine⟩ := hend
    refine ⟨⟨?_, ?_, .result hresult⟩, hmachine.bindings, hmachine.handles⟩
    · simp only [Reply.output, Reply.ofRun, hmachine.journal, hrenumber, List.map_id,
        List.nil_append]
    · simp only [Reply.ofRun, hmachine.counted, Nat.zero_add]
  · exact hend.elim
  · exact hend.elim
  · obtain ⟨hhalt, hmachine⟩ := hend
    refine ⟨⟨?_, ?_, .halted hhalt⟩, hmachine.bindings, hmachine.handles⟩
    · simp only [Reply.output, Reply.ofRun, hmachine.journal, hrenumber, List.map_id,
        List.nil_append]
    · simp only [Reply.ofRun, hmachine.counted, Nat.zero_add]

end Scriptlet
