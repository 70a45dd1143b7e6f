import Scriptlet.Proofs.Likeness

/-! # Relocation

A program that stands further down in a longer text has the same trees, except that its nodes are on
other lines and that its string literals have other handles. A tree and its relocation are alike, and
what is alike in this way is the relocation. -/

namespace Scriptlet

/-- A move of a program: what becomes of handles, and by how many lines it moves on. -/
structure Relocation where
  /-- The new handle for every handle. -/
  rename : Nat → Nat
  /-- How many lines are added in front. -/
  lines : Nat

/-- No two handles become one. -/
def Relocation.IsFaithful (move : Relocation) : Prop :=
  ∀ handle handle', move.rename handle = move.rename handle' → handle = handle'

variable (move : Relocation)

/-! ## What is relocated -/

/-- A position after a move. -/
def Position.relocate (position : Position) : Position :=
  { position with line := position.line + move.lines }

/-- A string value after a move. -/
def StringValue.relocate (value : StringValue) : StringValue :=
  ⟨value.content, move.rename value.handle⟩

/-- A value after a move. -/
def Value.relocate : Value → Value
  | .number value => .number value
  | .boolean value => .boolean value
  | .string value => .string (value.relocate move)

/-- An expression after a move. -/
def Expr.relocate : Expr → Expr
  | .name spelling place => .name spelling (place.map (·.relocate move))
  | .number value place => .number value (place.map (·.relocate move))
  | .string value place => .string (value.relocate move) (place.map (·.relocate move))
  | .unary op operand place => .unary op operand.relocate (place.map (·.relocate move))
  | .binary left op right place =>
    .binary left.relocate op right.relocate (place.map (·.relocate move))
  | .trailing operand op place => .trailing operand.relocate op (place.map (·.relocate move))
  | .typeOf operand place => .typeOf operand.relocate (place.map (·.relocate move))
  | .misplaced form rendering place => .misplaced form rendering (place.map (·.relocate move))
  | .absent => .absent

mutual

/-- A statement after a move. -/
def Stmt.relocate : Stmt → Stmt
  | .expression expr place => .expression (expr.relocate move) (place.map (·.relocate move))
  | .print expr place => .print (expr.relocate move) (place.map (·.relocate move))
  | .ret expr place => .ret (expr.relocate move) (place.map (·.relocate move))
  | .block body place => .block (relocateAll body) (place.map (·.relocate move))
  | .cond condition body place =>
    .cond (condition.relocate move) body.relocate (place.map (·.relocate move))
  | .condElse condition body other place =>
    .condElse (condition.relocate move) body.relocate other.relocate (place.map (·.relocate move))
  | .misplaced expr => .misplaced (expr.relocate move)

/-- Statements in a row after a move. -/
def Stmt.relocateAll : List Stmt → List Stmt
  | [] => []
  | first :: rest => first.relocate :: relocateAll rest

end

/-- A node after a move. -/
def Node.relocate : Node → Node
  | .expression expr => .expression (expr.relocate move)
  | .statement stmt => .statement (stmt.relocate move)

/-- A fault after a move: its cause stays. -/
def Fault.relocate (fault : Fault) : Fault :=
  ⟨fault.cause, fault.node.map (·.relocate move), fault.place.map (·.relocate move)⟩

/-- A reason to stop after a move. -/
def Halt.relocate : Halt → Halt
  | .failed fault => .failed (fault.relocate move)
  | .ended status value => .ended status (value.relocate move)
  | .broken breakdown => .broken breakdown
  | .tooDeep => .tooDeep
  | .gap => .gap
  | .absent => .absent

/-- Bindings whose values are changed one by one. -/
def Bindings.mapValues {α β : Type} (change : α → β) (bindings : Bindings α) : Bindings β :=
  ⟨bindings.entries.map fun entry => (entry.1, change entry.2), by
    rw [List.map_map]
    exact bindings.distinct⟩

/-! ## Relocation as a likeness -/

/-- What is alike up to a move. -/
def Relocation.likeness : Likeness where
  place position position' := position' = position.relocate move
  handle handle handle' := handle' = move.rename handle
  name _ := True

variable {move}

/-- A faithful move pairs handles with their new ones. -/
theorem Relocation.IsFaithful.isPairing (h : move.IsFaithful) :
    IsPairing move.likeness.handle := by
  rintro handle _ other _ rfl rfl
  exact ⟨fun hhandle => by rw [hhandle], h _ _⟩

/-- The places that may stand for each other are those that are moved. -/
theorem rel_place_iff {place place' : Option Position} :
    Option.Rel move.likeness.place place place' ↔ place' = place.map (·.relocate move) := by
  constructor
  · rintro (hplace | _)
    · rw [hplace]
      rfl
    · rfl
  · rintro rfl
    cases place with
    | none => exact .none
    | some position => exact .some rfl

/-- The string values that are alike are those that are moved. -/
theorem StringValue.like_iff {value value' : StringValue} :
    value.Like move.likeness value' ↔ value' = value.relocate move := by
  constructor
  · rintro ⟨content, hhandle⟩
    rw [hhandle]
    rfl
  · rintro rfl
    exact .mk _ rfl

/-- The values that are alike are those that are moved. -/
theorem Value.like_iff {value value' : Value} :
    value.Like move.likeness value' ↔ value' = value.relocate move := by
  constructor
  · rintro (_ | _ | hvalue)
    · rfl
    · rfl
    · rw [StringValue.like_iff.1 hvalue]
      rfl
  · rintro rfl
    cases value with
    | number value => exact .number value
    | boolean value => exact .boolean value
    | string value => exact .string (StringValue.like_iff.2 rfl)

/-- An expression and its relocation are alike. -/
theorem Expr.like_relocate (expr : Expr) : expr.Like move.likeness (expr.relocate move) := by
  have hplace (place : Option Position) := rel_place_iff.2 (Eq.refl (place.map (·.relocate move)))
  induction expr with
  | name spelling place => exact .name trivial (hplace place)
  | number value place => exact .number value (hplace place)
  | string value place => exact .string (StringValue.like_iff.2 rfl) (hplace place)
  | unary op operand place ih => exact .unary op ih (hplace place)
  | binary left op right place ihleft ihright => exact .binary op ihleft ihright (hplace place)
  | trailing operand op place ih => exact .trailing op ih (hplace place)
  | typeOf operand place ih => exact .typeOf ih (hplace place)
  | misplaced form rendering place => exact .misplaced form rendering (hplace place)
  | absent => exact .absent

/-- What is like an expression up to a move is its relocation. -/
theorem Expr.Like.eq_relocate {expr expr' : Expr} (h : expr.Like move.likeness expr') :
    expr' = expr.relocate move := by
  induction h with
  | name _ hplace => rw [relocate, rel_place_iff.1 hplace]
  | number _ hplace => rw [relocate, rel_place_iff.1 hplace]
  | string hvalue hplace => rw [relocate, StringValue.like_iff.1 hvalue, rel_place_iff.1 hplace]
  | unary _ _ hplace ih => rw [relocate, ih, rel_place_iff.1 hplace]
  | binary _ _ _ hplace ihleft ihright => rw [relocate, ihleft, ihright, rel_place_iff.1 hplace]
  | trailing _ _ hplace ih => rw [relocate, ih, rel_place_iff.1 hplace]
  | typeOf _ hplace ih => rw [relocate, ih, rel_place_iff.1 hplace]
  | misplaced _ _ hplace => rw [relocate, rel_place_iff.1 hplace]
  | absent => rfl

namespace Stmt

mutual

/-- A statement is like its relocation. -/
theorem like_relocate : ∀ (stmt : Stmt), stmt.Like move.likeness (stmt.relocate move)
  | .expression expr _ => .expression expr.like_relocate (rel_place_iff.2 rfl)
  | .print expr _ => .print expr.like_relocate (rel_place_iff.2 rfl)
  | .ret expr _ => .ret expr.like_relocate (rel_place_iff.2 rfl)
  | .block body _ => .block (likeAll_relocateAll body) (rel_place_iff.2 rfl)
  | .cond condition body _ =>
    .cond condition.like_relocate (like_relocate body) (rel_place_iff.2 rfl)
  | .condElse condition body other _ =>
    .condElse condition.like_relocate (like_relocate body) (like_relocate other)
      (rel_place_iff.2 rfl)
  | .misplaced expr => .misplaced expr.like_relocate

/-- A row of statements and its relocation are alike. -/
theorem likeAll_relocateAll : ∀ (row : List Stmt), LikeAll move.likeness row (relocateAll move row)
  | [] => .nil
  | first :: rest => .cons (like_relocate first) (likeAll_relocateAll rest)

end

mutual

/-- A statement that is like another is its relocation. -/
theorem Like.eq_relocate :
    ∀ {stmt stmt' : Stmt}, stmt.Like move.likeness stmt' → stmt' = stmt.relocate move
  | _, _, .expression hexpr hplace | _, _, .print hexpr hplace | _, _, .ret hexpr hplace => by
    rw [relocate, hexpr.eq_relocate, rel_place_iff.1 hplace]
  | _, _, .block hbody hplace => by
    rw [relocate, hbody.eq_relocateAll, rel_place_iff.1 hplace]
  | _, _, .cond hcondition hbody hplace => by
    rw [relocate, hcondition.eq_relocate, hbody.eq_relocate, rel_place_iff.1 hplace]
  | _, _, .condElse hcondition hbody hother hplace => by
    rw [relocate, hcondition.eq_relocate, hbody.eq_relocate, hother.eq_relocate,
      rel_place_iff.1 hplace]
  | _, _, .misplaced hexpr => by rw [relocate, hexpr.eq_relocate]

/-- What is like a row of statements up to a move is its relocation. -/
theorem LikeAll.eq_relocateAll :
    ∀ {row row' : List Stmt}, LikeAll move.likeness row row' → row' = relocateAll move row
  | _, _, .nil => rfl
  | _, _, .cons hfirst hrest => by
    rw [relocateAll, hfirst.eq_relocate, hrest.eq_relocateAll]

end

end Stmt

/-- A node that is like another is its relocation. -/
theorem Node.Like.eq_relocate {node node' : Node} (h : node.Like move.likeness node') :
    node' = node.relocate move := by
  cases h with
  | expression hexpr => rw [relocate, hexpr.eq_relocate]
  | statement hstmt => rw [relocate, hstmt.eq_relocate]

/-- A fault that is like another is its relocation. -/
theorem Fault.Like.eq_relocate {fault fault' : Fault} (h : fault.Like move.likeness fault') :
    fault' = fault.relocate move := by
  obtain ⟨cause, node, place⟩ := fault
  obtain ⟨cause', node', place'⟩ := fault'
  obtain ⟨hcause, hnode, hplace⟩ := h
  have hnode' : node' = node.map (·.relocate move) := by
    cases hnode with
    | some hnode => rw [hnode.eq_relocate, Option.map_some]
    | none => rfl
  simp only [relocate, Fault.mk.injEq]
  exact ⟨hcause, hnode', rel_place_iff.1 hplace⟩

/-- What is like a reason to stop up to a move is its relocation. -/
theorem Halt.Like.eq_relocate {halt halt' : Halt} (h : halt.Like move.likeness halt') :
    halt' = halt.relocate move := by
  cases h with
  | failed hfault => rw [relocate, hfault.eq_relocate]
  | ended status hvalue => rw [relocate, Value.like_iff.1 hvalue]
  | broken | tooDeep | gap | absent => rfl

/-- What is like a result up to a move is its relocation. -/
theorem eq_relocate_of_rel {result result' : Option Value}
    (h : Option.Rel (Value.Like move.likeness) result result') :
    result' = result.map (Value.relocate move) := by
  cases h with
  | some hvalue => rw [Value.like_iff.1 hvalue, Option.map_some]
  | none => rfl

/-! ## Bindings -/

namespace Bindings

variable {α β : Type} (change : α → β)

/-- To change all values and to bind a changed one comes to binding first and changing then. -/
theorem bindEntry_map (name : String) (value : α) (entries : List (String × α)) :
    bindEntry name (change value) (entries.map fun entry => (entry.1, change entry.2)) =
      (bindEntry name value entries).map fun entry => (entry.1, change entry.2) := by
  induction entries with
  | nil => rfl
  | cons first rest ih =>
    simp only [List.map_cons, bindEntry]
    split
    · rfl
    · rw [ih, List.map_cons]

/-- Binding a name goes together with changing all values. -/
theorem insert_mapValues (bindings : Bindings α) (name : String) (value : α) :
    (bindings.mapValues change).insert name (change value) =
      (bindings.insert name value).mapValues change := by
  simp only [insert, mapValues, bindEntry_map]

/-- Looking a name up goes together with changing all values. -/
theorem get?_mapValues (bindings : Bindings α) (name : String) :
    (bindings.mapValues change).get? name = (bindings.get? name).map change := by
  simp only [get?, mapValues, List.find?_map, Option.map_map, Function.comp_def]

end Bindings

end Scriptlet
