import Scriptlet.Bindings

/-! # Trees of scopes

Scopes inside one another. A name is looked up from a scope outward; assigning rebinds it in the
nearest scope that holds it, and binds it in the scope itself when none does. Scopes are numbered in
the order in which they are opened, so a scope always has a greater number than the one around
it. -/

namespace Scriptlet

/-- One scope: the number of the scope around it, and its own bindings. -/
structure Scope (α : Type) where
  /-- The scope around it; the outermost scope has none. -/
  parent : Option Nat := none
  /-- The names bound in this scope. -/
  bindings : Bindings α := .empty
  deriving Repr

/-- All scopes, each at its number. -/
structure ScopeTree (α : Type) where
  /-- The scopes in the order in which they were opened. -/
  scopes : List (Scope α) := [{}]
  deriving Repr

namespace ScopeTree

variable {α : Type}

/-- The numbers of a scope and of all scopes around it, from the inside out. -/
def chain (tree : ScopeTree α) (scope : Nat) : List Nat :=
  match tree.scopes[scope]? with
  | none => []
  | some found =>
    match found.parent with
    | none => [scope]
    | some parent => if parent < scope then scope :: tree.chain parent else [scope]
termination_by scope
decreasing_by assumption

/-- The bindings of a scope alone. -/
def own (tree : ScopeTree α) (scope : Nat) : Bindings α :=
  (tree.scopes[scope]?.map Scope.bindings).getD .empty

/-- The nearest scope from which a name can be seen. -/
def holder? (tree : ScopeTree α) (scope : Nat) (name : String) : Option Nat :=
  (tree.chain scope).find? fun number => (tree.own number).holds name

/-- The value of a name, seen from a scope. -/
def lookup? (tree : ScopeTree α) (scope : Nat) (name : String) : Option α :=
  (tree.holder? scope name).bind fun number => (tree.own number).get? name

/-- Binds a name in the nearest scope that holds it, or else in the scope itself. -/
def assign (tree : ScopeTree α) (scope : Nat) (name : String) (value : α) : ScopeTree α :=
  let target := (tree.holder? scope name).getD scope
  ⟨tree.scopes.modify target fun found =>
    { found with bindings := found.bindings.insert name value }⟩

/-- Opens a scope inside another; its number is the number of scopes before. -/
def child (tree : ScopeTree α) (scope : Nat) : ScopeTree α :=
  ⟨tree.scopes ++ [{ parent := some scope }]⟩

/-- Keeps the first of equal names. -/
def firsts : List String → List String
  | [] => []
  | name :: rest => name :: (firsts rest).filter (· != name)

/-- The names that can be seen from a scope, from the inside out. -/
def names (tree : ScopeTree α) (scope : Nat) : List String :=
  firsts ((tree.chain scope).flatMap fun number => (tree.own number).names)

/-- Whether a name can be seen from a scope. -/
def contains (tree : ScopeTree α) (scope : Nat) (name : String) : Bool :=
  (tree.lookup? scope name).isSome

/-- How many names can be seen from a scope. -/
def size (tree : ScopeTree α) (scope : Nat) : Nat :=
  (tree.names scope).length

/-- The names that can be seen from a scope, with their values. -/
def items (tree : ScopeTree α) (scope : Nat) : List (String × Option α) :=
  (tree.names scope).map fun name => (name, tree.lookup? scope name)

end ScopeTree

end Scriptlet
