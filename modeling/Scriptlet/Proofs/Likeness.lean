import Scriptlet.Proofs.Runs

/-! # Trees and values that are alike

Two trees are alike if they differ at most in where their nodes stand and in which handles their
strings have; two values are alike if they differ at most in handles. Nothing else that a program
does can be told apart by them: trees that are alike have the same depth and the same text, and what
an operator makes of operands depends on handles only by which of them are equal.

* `Likeness`: which positions and which handles may stand for each other.
* `Expr.Like`, `Stmt.Like`, `Value.Like`, `Halt.Like`: trees, values and reasons to stop.
* `Stmt.likeAll_self`: a program is like itself if its names and strings may stand for themselves.
* `Operator.binary_eq`: an operator makes the same of operands that are alike. -/

namespace Scriptlet

/-- What two programs that are alike may differ in. -/
structure Likeness where
  /-- The positions that may stand for each other. -/
  place : Position → Position → Prop
  /-- The handles that may stand for each other. -/
  handle : Nat → Nat → Prop
  /-- The names that may occur. -/
  name : String → Prop

/-- No handle stands for two others. -/
def IsPairing (pairs : Nat → Nat → Prop) : Prop :=
  ∀ {handle handle' other other' : Nat}, pairs handle handle' → pairs other other' →
    (handle = other ↔ handle' = other')

/-- That every handle stands for itself is a pairing. -/
theorem isPairing_eq : IsPairing Eq := by
  rintro handle _ other _ rfl rfl
  exact Iff.rfl

/-- Handles that stand for each other if they did so before and are below two bounds, or if they are
equally far beyond the bounds. -/
def Beyond (pairs : Nat → Nat → Prop) (bound bound' handle handle' : Nat) : Prop :=
  (pairs handle handle' ∧ handle < bound ∧ handle' < bound') ∨
    ∃ made, handle = bound + made ∧ handle' = bound' + made

/-- Handles beyond two bounds can be paired in order, whatever is paired below. -/
theorem IsPairing.beyond {pairs : Nat → Nat → Prop} (h : IsPairing pairs) (bound bound' : Nat) :
    IsPairing (Beyond pairs bound bound') := by
  rintro handle handle' other other' (⟨hold, hlt, hlt'⟩ | ⟨made, rfl, rfl⟩)
    (⟨hother, hless, hless'⟩ | ⟨made', rfl, rfl⟩)
  · exact h hold hother
  · omega
  · omega
  · omega

/-! ## What is alike -/

/-- String values with the same content, whose handles may stand for each other. -/
inductive StringValue.Like (like : Likeness) : StringValue → StringValue → Prop where
  | mk (content : String) {handle handle' : Nat} (hhandle : like.handle handle handle') :
    Like like ⟨content, handle⟩ ⟨content, handle'⟩

/-- Values that differ at most in the handles of strings. -/
inductive Value.Like (like : Likeness) : Value → Value → Prop where
  | number (value : Float) : Like like (.number value) (.number value)
  | boolean (value : Bool) : Like like (.boolean value) (.boolean value)
  | string {value value' : StringValue} (hvalue : value.Like like value') :
    Like like (.string value) (.string value')

/-- Expressions that differ at most in the places of their nodes and the handles of their
strings. -/
inductive Expr.Like (like : Likeness) : Expr → Expr → Prop where
  | name {spelling : String} {place place' : Option Position} (hname : like.name spelling)
    (hplace : Option.Rel like.place place place') :
    Like like (.name spelling place) (.name spelling place')
  | number (value : Float) {place place' : Option Position}
    (hplace : Option.Rel like.place place place') :
    Like like (.number value place) (.number value place')
  | string {value value' : StringValue} {place place' : Option Position}
    (hvalue : value.Like like value') (hplace : Option.Rel like.place place place') :
    Like like (.string value place) (.string value' place')
  | unary (op : Operator) {operand operand' : Expr} {place place' : Option Position}
    (hoperand : Like like operand operand') (hplace : Option.Rel like.place place place') :
    Like like (.unary op operand place) (.unary op operand' place')
  | binary (op : Operator) {left left' right right' : Expr} {place place' : Option Position}
    (hleft : Like like left left') (hright : Like like right right')
    (hplace : Option.Rel like.place place place') :
    Like like (.binary left op right place) (.binary left' op right' place')
  | trailing (op : Operator) {operand operand' : Expr} {place place' : Option Position}
    (hoperand : Like like operand operand') (hplace : Option.Rel like.place place place') :
    Like like (.trailing operand op place) (.trailing operand' op place')
  | typeOf {operand operand' : Expr} {place place' : Option Position}
    (hoperand : Like like operand operand') (hplace : Option.Rel like.place place place') :
    Like like (.typeOf operand place) (.typeOf operand' place')
  | misplaced (form : String) (rendering : Option String) {place place' : Option Position}
    (hplace : Option.Rel like.place place place') :
    Like like (.misplaced form rendering place) (.misplaced form rendering place')
  | absent : Like like .absent .absent

mutual

/-- Statements that differ at most in the places of their nodes and the handles of their
strings. -/
inductive Stmt.Like (like : Likeness) : Stmt → Stmt → Prop where
  | expression {expr expr' : Expr} {place place' : Option Position} (hexpr : expr.Like like expr')
    (hplace : Option.Rel like.place place place') :
    Stmt.Like like (.expression expr place) (.expression expr' place')
  | print {expr expr' : Expr} {place place' : Option Position} (hexpr : expr.Like like expr')
    (hplace : Option.Rel like.place place place') :
    Stmt.Like like (.print expr place) (.print expr' place')
  | ret {expr expr' : Expr} {place place' : Option Position} (hexpr : expr.Like like expr')
    (hplace : Option.Rel like.place place place') :
    Stmt.Like like (.ret expr place) (.ret expr' place')
  | block {body body' : List Stmt} {place place' : Option Position}
    (hbody : Stmt.LikeAll like body body') (hplace : Option.Rel like.place place place') :
    Stmt.Like like (.block body place) (.block body' place')
  | cond {condition condition' : Expr} {body body' : Stmt} {place place' : Option Position}
    (hcondition : condition.Like like condition') (hbody : Stmt.Like like body body')
    (hplace : Option.Rel like.place place place') :
    Stmt.Like like (.cond condition body place) (.cond condition' body' place')
  | condElse {condition condition' : Expr} {body body' other other' : Stmt}
    {place place' : Option Position} (hcondition : condition.Like like condition')
    (hbody : Stmt.Like like body body') (hother : Stmt.Like like other other')
    (hplace : Option.Rel like.place place place') :
    Stmt.Like like (.condElse condition body other place) (.condElse condition' body' other' place')
  | misplaced {expr expr' : Expr} (hexpr : expr.Like like expr') :
    Stmt.Like like (.misplaced expr) (.misplaced expr')

/-- Rows of statements that are alike one by one. -/
inductive Stmt.LikeAll (like : Likeness) : List Stmt → List Stmt → Prop where
  | nil : Stmt.LikeAll like [] []
  | cons {first first' : Stmt} {rest rest' : List Stmt} (hfirst : Stmt.Like like first first')
    (hrest : Stmt.LikeAll like rest rest') : Stmt.LikeAll like (first :: rest) (first' :: rest')

end

/-- Nodes that are alike. -/
inductive Node.Like (like : Likeness) : Node → Node → Prop where
  | expression {expr expr' : Expr} (hexpr : expr.Like like expr') :
    Like like (.expression expr) (.expression expr')
  | statement {stmt stmt' : Stmt} (hstmt : stmt.Like like stmt') :
    Like like (.statement stmt) (.statement stmt')

/-- Faults with the same cause, at nodes and positions that are alike. -/
structure Fault.Like (like : Likeness) (fault fault' : Fault) : Prop where
  cause : fault'.cause = fault.cause
  node : Option.Rel (Node.Like like) fault.node fault'.node
  place : Option.Rel like.place fault.place fault'.place

/-- Reasons to stop that are alike. -/
inductive Halt.Like (like : Likeness) : Halt → Halt → Prop where
  | failed {fault fault' : Fault} (hfault : fault.Like like fault') :
    Like like (.failed fault) (.failed fault')
  | ended (status : Int) {value value' : Value} (hvalue : value.Like like value') :
    Like like (.ended status value) (.ended status value')
  | broken (breakdown : Breakdown) : Like like (.broken breakdown) (.broken breakdown)
  | tooDeep : Like like .tooDeep .tooDeep
  | gap : Like like .gap .gap
  | absent : Like like .absent .absent

variable {like : Likeness}

/-! ## Trees -/

namespace Expr

variable {expr expr' : Expr}

/-- Expressions that are alike stand in places that may stand for each other. -/
theorem Like.place? (h : expr.Like like expr') : Option.Rel like.place expr.place? expr'.place? := by
  cases h with
  | absent => exact .none
  | _ => assumption

/-- Of two expressions that are alike, both are absent or neither is. -/
theorem Like.isAbsent_eq (h : expr.Like like expr') : expr'.isAbsent = expr.isAbsent := by
  cases h <;> rfl

/-- Expressions that are alike have the same form. -/
theorem Like.form_eq (h : expr.Like like expr') : expr'.form = expr.form := by
  cases h <;> rfl

/-- Expressions that are alike are equally deep. -/
theorem Like.depth_eq (h : expr.Like like expr') : expr'.depth = expr.depth := by
  induction h with
  | unary op _ _ ih => rw [depth, depth, ih]
  | binary op _ _ _ ihleft ihright => rw [depth, depth, ihleft, ihright]
  | trailing op _ _ ih => rw [depth, depth, ih]
  | typeOf _ _ ih => rw [depth, depth, ih]
  | _ => rfl

/-- Expressions that are alike have the same text. -/
theorem Like.render_eq (h : expr.Like like expr') : expr'.render = expr.render := by
  induction h with
  | string hvalue _ =>
    cases hvalue
    rfl
  | unary op _ _ ih => rw [render, render, ih]
  | binary op _ _ _ ihleft ihright => rw [render, render, ihleft, ihright]
  | trailing op _ _ ih => rw [render, render, ih]
  | typeOf _ _ ih => rw [render, render, ih]
  | _ => rfl

/-- Of two expressions that are alike, both are complete or neither is. -/
theorem Like.isComplete_eq (h : expr.Like like expr') : expr'.isComplete = expr.isComplete := by
  induction h with
  | unary op _ _ ih => rw [isComplete, isComplete, ih]
  | binary op _ _ _ ihleft ihright => rw [isComplete, isComplete, ihleft, ihright]
  | trailing op _ _ ih => rw [isComplete, isComplete, ih]
  | typeOf _ _ ih => rw [isComplete, isComplete, ih]
  | _ => rfl

end Expr

namespace Stmt

/-- Statements that are alike stand in places that may stand for each other. -/
theorem Like.place? {stmt stmt' : Stmt} (h : stmt.Like like stmt') :
    Option.Rel like.place stmt.place? stmt'.place? := by
  cases h with
  | misplaced hexpr => exact hexpr.place?
  | _ => assumption

mutual

/-- Statements that are alike are equally deep. -/
theorem Like.depth_eq : ∀ {stmt stmt' : Stmt}, stmt.Like like stmt' → stmt'.depth = stmt.depth
  | _, _, .expression hexpr _ | _, _, .print hexpr _ | _, _, .ret hexpr _
  | _, _, .misplaced hexpr => by
    rw [depth, depth, hexpr.depth_eq]
  | _, _, .block hbody _ => by rw [depth, depth, hbody.depthAll_eq]
  | _, _, .cond hcondition hbody _ => by
    rw [depth, depth, hcondition.depth_eq, hbody.depth_eq]
  | _, _, .condElse hcondition hbody hother _ => by
    rw [depth, depth, hcondition.depth_eq, hbody.depth_eq, hother.depth_eq]

/-- Rows of statements that are alike are equally deep. -/
theorem LikeAll.depthAll_eq :
    ∀ {row row' : List Stmt}, LikeAll like row row' → depthAll row' = depthAll row
  | _, _, .nil => rfl
  | _, _, .cons hfirst hrest => by rw [depthAll, depthAll, hfirst.depth_eq, hrest.depthAll_eq]

end

mutual

/-- Statements that are alike have the same text. -/
theorem Like.render_eq : ∀ {stmt stmt' : Stmt}, stmt.Like like stmt' → stmt'.render = stmt.render
  | _, _, .expression hexpr _ | _, _, .print hexpr _ | _, _, .ret hexpr _
  | _, _, .misplaced hexpr => by
    rw [render, render, hexpr.render_eq]
  | _, _, .block .nil _ => rfl
  | _, _, .block (.cons hfirst hrest) _ => by
    simp only [render, renderAll, hfirst.render_eq, hrest.renderAll_eq]
  | _, _, .cond hcondition hbody _ => by
    rw [render, render, hcondition.render_eq, hbody.render_eq]
  | _, _, .condElse hcondition hbody hother _ => by
    rw [render, render, hcondition.render_eq, hbody.render_eq, hother.render_eq]

/-- Rows of statements that are alike have the same texts. -/
theorem LikeAll.renderAll_eq :
    ∀ {row row' : List Stmt}, LikeAll like row row' → renderAll row' = renderAll row
  | _, _, .nil => rfl
  | _, _, .cons hfirst hrest => by rw [renderAll, renderAll, hfirst.render_eq, hrest.renderAll_eq]

end

mutual

/-- Of two statements that are alike, both are complete or neither is. -/
theorem Like.isComplete_eq :
    ∀ {stmt stmt' : Stmt}, stmt.Like like stmt' → stmt'.isComplete = stmt.isComplete
  | _, _, .expression hexpr _ | _, _, .print hexpr _ | _, _, .ret hexpr _
  | _, _, .misplaced hexpr => by
    rw [isComplete, isComplete, hexpr.isComplete_eq]
  | _, _, .block hbody _ => by rw [isComplete, isComplete, hbody.areComplete_eq]
  | _, _, .cond hcondition hbody _ => by
    rw [isComplete, isComplete, hcondition.isComplete_eq, hbody.isComplete_eq]
  | _, _, .condElse hcondition hbody hother _ => by
    rw [isComplete, isComplete, hcondition.isComplete_eq, hbody.isComplete_eq, hother.isComplete_eq]

/-- Of two rows that are alike, both are complete or neither is. -/
theorem LikeAll.areComplete_eq :
    ∀ {row row' : List Stmt}, LikeAll like row row' → areComplete row' = areComplete row
  | _, _, .nil => rfl
  | _, _, .cons hfirst hrest => by
    rw [areComplete, areComplete, hfirst.isComplete_eq, hrest.areComplete_eq]

end

/-- Statements that are alike are shown alike, or not at all. -/
theorem Like.render?_eq {stmt stmt' : Stmt} (h : stmt.Like like stmt') :
    stmt'.render? = stmt.render? := by
  rw [render?, render?, h.isComplete_eq, h.render_eq]

end Stmt

/-! ## What occurs in a tree -/

/-- The names in an expression. -/
def Expr.names : Expr → List String
  | .name spelling _ => [spelling]
  | .unary _ operand _ | .trailing operand _ _ | .typeOf operand _ => operand.names
  | .binary left _ right _ => left.names ++ right.names
  | .number .. | .string .. | .misplaced .. | .absent => []

/-- The strings in an expression. -/
def Expr.strings : Expr → List StringValue
  | .string value _ => [value]
  | .unary _ operand _ | .trailing operand _ _ | .typeOf operand _ => operand.strings
  | .binary left _ right _ => left.strings ++ right.strings
  | .name .. | .number .. | .misplaced .. | .absent => []

namespace Stmt

mutual

/-- The names in a statement. -/
def names : Stmt → List String
  | .expression expr _ | .print expr _ | .ret expr _ | .misplaced expr => expr.names
  | .block body _ => namesAll body
  | .cond condition body _ => condition.names ++ body.names
  | .condElse condition body other _ => condition.names ++ body.names ++ other.names

/-- The names in a row of statements. -/
def namesAll : List Stmt → List String
  | [] => []
  | first :: rest => first.names ++ namesAll rest

end

mutual

/-- The strings in a statement. -/
def strings : Stmt → List StringValue
  | .expression expr _ | .print expr _ | .ret expr _ | .misplaced expr => expr.strings
  | .block body _ => stringsAll body
  | .cond condition body _ => condition.strings ++ body.strings
  | .condElse condition body other _ => condition.strings ++ body.strings ++ other.strings

/-- The strings in a row of statements. -/
def stringsAll : List Stmt → List StringValue
  | [] => []
  | first :: rest => first.strings ++ stringsAll rest

end

end Stmt

/-- A place may stand for itself if every position may. -/
theorem rel_place_self (hplace : ∀ position, like.place position position)
    (place : Option Position) : Option.Rel like.place place place := by
  cases place with
  | none => exact .none
  | some position => exact .some (hplace position)

/-- An expression is like itself if its names and strings may stand for themselves. -/
theorem Expr.like_self (hplace : ∀ position, like.place position position) {expr : Expr}
    (hnames : ∀ name ∈ expr.names, like.name name)
    (hstrings : ∀ value ∈ expr.strings, like.handle value.handle value.handle) :
    expr.Like like expr := by
  have hself := rel_place_self hplace
  induction expr with
  | name spelling place => exact .name (hnames _ (List.mem_singleton.2 rfl)) (hself place)
  | number value place => exact .number value (hself place)
  | string value place =>
    exact .string (.mk value.content (hstrings value (List.mem_singleton.2 rfl))) (hself place)
  | unary op operand place ih => exact .unary op (ih hnames hstrings) (hself place)
  | binary left op right place ihleft ihright =>
    rw [names, List.forall_mem_append] at hnames
    rw [strings, List.forall_mem_append] at hstrings
    exact .binary op (ihleft hnames.1 hstrings.1) (ihright hnames.2 hstrings.2) (hself place)
  | trailing operand op place ih => exact .trailing op (ih hnames hstrings) (hself place)
  | typeOf operand place ih => exact .typeOf (ih hnames hstrings) (hself place)
  | misplaced form rendering place => exact .misplaced form rendering (hself place)
  | absent => exact .absent

mutual

/-- A statement is like itself if its names and strings may stand for themselves. -/
theorem Stmt.like_self (hplace : ∀ position, like.place position position) :
    ∀ (stmt : Stmt), (∀ name ∈ stmt.names, like.name name) →
    (∀ value ∈ stmt.strings, like.handle value.handle value.handle) → stmt.Like like stmt
  | .expression _ place, hnames, hstrings =>
    .expression (Expr.like_self hplace hnames hstrings) (rel_place_self hplace place)
  | .print _ place, hnames, hstrings =>
    .print (Expr.like_self hplace hnames hstrings) (rel_place_self hplace place)
  | .ret _ place, hnames, hstrings =>
    .ret (Expr.like_self hplace hnames hstrings) (rel_place_self hplace place)
  | .block body place, hnames, hstrings =>
    .block (Stmt.likeAll_self hplace body hnames hstrings) (rel_place_self hplace place)
  | .cond _ body place, hnames, hstrings => by
    rw [Stmt.names, List.forall_mem_append] at hnames
    rw [Stmt.strings, List.forall_mem_append] at hstrings
    exact .cond (Expr.like_self hplace hnames.1 hstrings.1)
      (Stmt.like_self hplace body hnames.2 hstrings.2) (rel_place_self hplace place)
  | .condElse _ body other place, hnames, hstrings => by
    rw [Stmt.names, List.forall_mem_append, List.forall_mem_append] at hnames
    rw [Stmt.strings, List.forall_mem_append, List.forall_mem_append] at hstrings
    exact .condElse (Expr.like_self hplace hnames.1.1 hstrings.1.1)
      (Stmt.like_self hplace body hnames.1.2 hstrings.1.2)
      (Stmt.like_self hplace other hnames.2 hstrings.2) (rel_place_self hplace place)
  | .misplaced _, hnames, hstrings => .misplaced (Expr.like_self hplace hnames hstrings)

/-- A program is like itself if its names and strings may stand for themselves. -/
theorem Stmt.likeAll_self (hplace : ∀ position, like.place position position) :
    ∀ (row : List Stmt), (∀ name ∈ Stmt.namesAll row, like.name name) →
    (∀ value ∈ Stmt.stringsAll row, like.handle value.handle value.handle) →
    Stmt.LikeAll like row row
  | [], _, _ => .nil
  | first :: rest, hnames, hstrings => by
    rw [Stmt.namesAll, List.forall_mem_append] at hnames
    rw [Stmt.stringsAll, List.forall_mem_append] at hstrings
    exact .cons (Stmt.like_self hplace first hnames.1 hstrings.1)
      (Stmt.likeAll_self hplace rest hnames.2 hstrings.2)

end

/-- Nodes that are alike stand in places that may stand for each other. -/
theorem Node.Like.place? {node node' : Node} (h : node.Like like node') :
    Option.Rel like.place node.place? node'.place? := by
  cases h with
  | expression hexpr => exact hexpr.place?
  | statement hstmt => exact hstmt.place?

/-! ## Values -/

namespace Value

variable {value value' left left' right right' : Value}

/-- Values that are alike have the same kind. -/
theorem Like.kind_eq (h : value.Like like value') : value'.kind = value.kind := by
  cases h <;> rfl

/-- Values that are alike are printed alike. -/
theorem Like.printed_eq (h : value.Like like value') : value'.printed = value.printed := by
  cases h with
  | string hvalue =>
    cases hvalue
    rfl
  | _ => rfl

/-- Values that are alike are shown alike. -/
theorem Like.shown_eq (h : value.Like like value') : value'.shown = value.shown := by
  cases h with
  | string hvalue =>
    cases hvalue
    rfl
  | _ => rfl

/-- Values that are alike end a program with the same status. -/
theorem Like.exitStatus_eq (h : value.Like like value') : value'.exitStatus = value.exitStatus := by
  cases h <;> rfl

end Value

/-- What is yielded is alike if a new string gets handles that may stand for each other. -/
theorem Yield.like_toValue (yield : Yield) {handle handle' : Nat}
    (hhandle : like.handle handle handle') :
    (yield.toValue handle).Like like (yield.toValue handle') := by
  cases yield with
  | number value => exact .number value
  | boolean value => exact .boolean value
  | newString content => exact .string (.mk content hhandle)

namespace Operator

/-- **An operator makes the same of operands that are alike**: of handles it asks at most whether
two of them are equal. -/
theorem binary_eq (hpairing : IsPairing like.handle) (op : Operator) {left left' right right' : Value}
    (hleft : left.Like like left') (hright : right.Like like right') :
    op.binary left' right' = op.binary left right := by
  cases hleft with
  | number => cases hright <;> cases op <;> rfl
  | boolean => cases hright <;> cases op <;> rfl
  | string hleft =>
    obtain ⟨content, hhandle⟩ := hleft
    cases hright with
    | number => cases op <;> rfl
    | boolean => cases op <;> rfl
    | string hright =>
      obtain ⟨content', hhandle'⟩ := hright
      -- identity is the one operator that looks at handles
      cases op with
      | same =>
        simp only [binary, identical, Except.ok.injEq, Yield.boolean.injEq]
        rw [Bool.eq_iff_iff, beq_iff_eq, beq_iff_eq]
        exact (hpairing hhandle hhandle').symm
      | _ => rfl

/-- A unary operator makes the same of operands that are alike. -/
theorem unary_eq (op : Operator) {operand operand' : Value} (h : operand.Like like operand') :
    op.unary operand' = op.unary operand := by
  cases h <;> cases op <;> rfl

end Operator

/-! ## Faults -/

/-- Faults that are alike stay so when their node is fixed: it is known in both or in neither. -/
theorem Fault.Like.locate {fault fault' : Fault} (h : fault.Like like fault') {node node' : Node}
    (hnode : node.Like like node') : (fault.locate node).Like like (fault'.locate node') := by
  obtain ⟨cause, found, place⟩ := fault
  obtain ⟨cause', found', place'⟩ := fault'
  obtain ⟨hcause, hfound, hplace⟩ := h
  cases hfound with
  | some hfound => exact ⟨hcause, .some hfound, hplace⟩
  | none => exact ⟨hcause, .some hnode, hnode.place?⟩

/-- Faults that are alike stay so when their position is fixed by the statement. -/
theorem Fault.Like.settle {fault fault' : Fault} (h : fault.Like like fault') {stmt stmt' : Stmt}
    (hstmt : stmt.Like like stmt') : (fault.settle stmt).Like like (fault'.settle stmt') := by
  obtain ⟨cause, found, place⟩ := fault
  obtain ⟨cause', found', place'⟩ := fault'
  obtain ⟨hcause, hfound, hplace⟩ := h
  cases hplace with
  | some hplace => exact ⟨hcause, hfound, .some hplace⟩
  | none => exact ⟨hcause, hfound, hstmt.place?⟩

namespace Halt

variable {halt halt' : Halt}

/-- Halts that are alike still are when each blames one of two nodes that are alike. -/
theorem Like.locate (h : halt.Like like halt') {node node' : Node} (hnode : node.Like like node') :
    (halt.locate node).Like like (halt'.locate node') := by
  cases h with
  | failed hfault => exact .failed (hfault.locate hnode)
  | ended status hvalue => exact .ended status hvalue
  | broken breakdown => exact .broken breakdown
  | tooDeep => exact .tooDeep
  | gap => exact .gap
  | absent => exact .absent

/-- Halts that are alike still are when each is settled on one of two statements that are alike. -/
theorem Like.settle (h : halt.Like like halt') {stmt stmt' : Stmt} (hstmt : stmt.Like like stmt') :
    (halt.settle stmt).Like like (halt'.settle stmt') := by
  cases h with
  | failed hfault => exact .failed (hfault.settle hstmt)
  | ended status hvalue => exact .ended status hvalue
  | broken breakdown => exact .broken breakdown
  | tooDeep => exact .tooDeep
  | gap => exact .gap
  | absent => exact .absent

end Halt

end Scriptlet
