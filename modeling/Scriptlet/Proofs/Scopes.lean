import Scriptlet.ScopeTree
import Scriptlet.Value

/-! # Assignment in a tree of scopes

A scope is opened inside one that is there already, so the way outward goes to ever smaller numbers
and ends. Assigning a name binds it in one scope and keeps how scopes lie in one another, so
another scope sees the new value just when its own way outward meets that scope first.

* `Reachable`: the trees that opening scopes and assigning names make from one empty scope.
* `Nearest`: the first scope that holds a name on the way outward.
* `assign_writes_one_entry`: what an assignment changes, and what is seen behind it. -/

namespace Scriptlet

variable {α : Type}

/-! ## Entries -/

/-- An entry is written: in the place of the one with its name, or at the end if there is none. -/
def WritesEntry (name : String) (value : α) (before after : List (String × α)) : Prop :=
  (∃ front old back, before = front ++ (name, old) :: back ∧
    after = front ++ (name, value) :: back) ∨
  name ∉ before.map Prod.fst ∧ after = before ++ [(name, value)]

/-- To bind a name writes its entry. -/
theorem writesEntry_bindEntry (name : String) (value : α) (entries : List (String × α)) :
    WritesEntry name value entries (bindEntry name value entries) := by
  induction entries with
  | nil => exact .inr ⟨by simp, rfl⟩
  | cons entry rest ih =>
    obtain ⟨held, old⟩ := entry
    by_cases hname : held = name
    · subst hname
      exact .inl ⟨[], old, rest, rfl, by simp [bindEntry]⟩
    · rw [bindEntry, if_neg hname]
      -- the name is further on, or it is new and stands at the end
      rcases ih with ⟨front, found, back, hbefore, hafter⟩ | ⟨hnew, hafter⟩
      · exact .inl ⟨(held, old) :: front, found, back, by rw [hbefore]; rfl, by rw [hafter]; rfl⟩
      · refine .inr ⟨?_, by rw [hafter]; rfl⟩
        rw [List.map_cons, List.mem_cons, not_or]
        exact ⟨Ne.symm hname, hnew⟩

namespace Bindings

/-- Bindings hold a name if they have a value for it. -/
theorem holds_eq_isSome (bindings : Bindings α) (name : String) :
    bindings.holds name = (bindings.get? name).isSome := by
  rw [holds, get?, Option.isSome_map, List.isSome_find?]

/-- Bindings hold a name that was bound. -/
theorem holds_insert_self (bindings : Bindings α) (name : String) (value : α) :
    (bindings.insert name value).holds name = true := by
  rw [holds_eq_isSome, get?_insert, if_pos rfl]
  rfl

end Bindings

namespace ScopeTree

/-! ## The way outward -/

/-- The scope right around another. -/
def parent? (tree : ScopeTree α) (scope : Nat) : Option Nat :=
  tree.scopes[scope]?.bind Scope.parent

/-- The first scope that holds a name on the way from a scope outward. -/
inductive Nearest (tree : ScopeTree α) (name : String) : Nat → Nat → Prop where
  /-- The scope itself holds the name. -/
  | here {scope : Nat} : (tree.own scope).holds name = true → Nearest tree name scope scope
  /-- The scope does not hold the name, and the first one is the same as for the scope around. -/
  | outward {scope parent holder : Nat} : (tree.own scope).holds name = false →
      tree.parent? scope = some parent → Nearest tree name parent holder →
      Nearest tree name scope holder

/-- Trees that come from one empty scope by opening scopes inside others and assigning names. -/
inductive Reachable : ScopeTree α → Prop where
  /-- One empty scope. -/
  | root : Reachable {}
  /-- A scope is opened inside another. -/
  | child {tree : ScopeTree α} {scope : Nat} : Reachable tree → scope < tree.scopes.length →
      Reachable (tree.child scope)
  /-- A name is assigned in a scope. -/
  | assign {tree : ScopeTree α} {scope : Nat} (name : String) (value : α) : Reachable tree →
      scope < tree.scopes.length → Reachable (tree.assign scope name value)

/-- The way outward goes to ever smaller numbers. -/
def Nested (tree : ScopeTree α) : Prop :=
  ∀ scope parent, tree.parent? scope = some parent → parent < scope

/-- To open a scope inside another keeps the way outward. -/
theorem nested_child {tree : ScopeTree α} (h : tree.Nested) {scope : Nat}
    (hscope : scope < tree.scopes.length) : (tree.child scope).Nested := by
  intro inner parent hparent
  rw [parent?, child] at hparent
  -- an old scope keeps its parent, the new one has an old parent, and there are no others
  rcases Nat.lt_trichotomy inner tree.scopes.length with hold | hnew | hbeyond
  · rw [List.getElem?_append_left hold] at hparent
    exact h inner parent hparent
  · subst hnew
    rw [List.getElem?_concat_length] at hparent
    cases hparent
    exact hscope
  · have hnone : (tree.scopes ++ [{ parent := some scope }])[inner]? = none :=
      List.getElem?_eq_none (by rw [List.length_append]; exact hbeyond)
    rw [hnone] at hparent
    cases hparent

/-- An assignment leaves the scopes around each other. -/
@[simp] theorem parent?_assign (tree : ScopeTree α) (scope : Nat) (name : String) (value : α)
    (other : Nat) : (tree.assign scope name value).parent? other = tree.parent? other := by
  simp only [parent?, assign, List.getElem?_modify]
  cases tree.scopes[other]? with
  | none => rfl
  | some found =>
    simp only [Option.bind_some]
    split <;> rfl

/-- So an assignment keeps the way outward. -/
theorem nested_assign {tree : ScopeTree α} (h : tree.Nested) (scope : Nat) (name : String)
    (value : α) : (tree.assign scope name value).Nested := by
  intro inner parent hparent
  rw [parent?_assign] at hparent
  exact h inner parent hparent

/-- In every tree that can be reached, the way outward goes to smaller numbers. -/
theorem Reachable.nested {tree : ScopeTree α} (h : Reachable tree) : tree.Nested := by
  induction h with
  | root =>
    intro scope parent hparent
    cases scope <;> cases hparent
  | child _ hscope ih => exact nested_child ih hscope
  | assign name value _ _ ih => exact nested_assign ih _ name value

namespace Nested

variable {tree : ScopeTree α}

/-- What a scope has as soon as the scope around it has it, all scopes have. -/
theorem outward_induction (h : tree.Nested) {property : Nat → Prop}
    (step : ∀ scope, (∀ parent, tree.parent? scope = some parent → property parent) →
      property scope) (scope : Nat) : property scope := by
  induction scope using Nat.strongRecOn with
  | ind scope ih => exact step scope fun parent hparent => ih parent (h scope parent hparent)

/-- The holder of a name is the scope itself or the holder for the scope around it. -/
theorem holder?_eq (h : tree.Nested) (scope : Nat) (name : String) :
    tree.holder? scope name =
      if (tree.own scope).holds name then some scope
      else (tree.parent? scope).bind (tree.holder? · name) := by
  rw [holder?, chain]
  cases hfound : tree.scopes[scope]? with
  | none =>
    have hown : tree.own scope = .empty := by rw [own, hfound]; rfl
    have hparent : tree.parent? scope = none := by rw [parent?, hfound]; rfl
    rw [hown, hparent]
    rfl
  | some found =>
    have hparent : tree.parent? scope = found.parent := by rw [parent?, hfound]; rfl
    rw [hparent]
    cases hfree : found.parent with
    | none => simp [hfree]
    | some parent =>
      -- the way outward goes to smaller numbers, so it ends
      have hlt : parent < scope := h scope parent (hparent.trans hfree)
      cases hholds : (tree.own scope).holds name <;> simp [hfree, hlt, hholds, holder?]

/-- The holder of a name is the first scope that holds it on the way outward. -/
theorem nearest_iff (h : tree.Nested) {scope holder : Nat} {name : String} :
    tree.Nearest name scope holder ↔ tree.holder? scope name = some holder := by
  constructor
  · intro hnearest
    induction hnearest with
    | here hholds => rw [h.holder?_eq, if_pos hholds]
    | outward hholds hparent _ ih =>
      rw [h.holder?_eq, hholds, hparent]
      exact ih
  -- by the number of the scope, which gets smaller on the way outward
  · induction scope using h.outward_induction with
    | step scope ih =>
      intro hholder
      rw [h.holder?_eq] at hholder
      cases hholds : (tree.own scope).holds name with
      | true =>
        rw [hholds, if_pos rfl] at hholder
        cases hholder
        exact .here hholds
      | false =>
        rw [hholds] at hholder
        obtain ⟨parent, hparent, houter⟩ := Option.bind_eq_some_iff.1 hholder
        exact .outward hholds hparent (ih parent hparent houter)

/-- A name has its value in the scope itself or else in the scope around it. -/
theorem lookup?_eq (h : tree.Nested) (scope : Nat) (name : String) :
    tree.lookup? scope name =
      ((tree.own scope).get? name).or ((tree.parent? scope).bind (tree.lookup? · name)) := by
  rw [lookup?, h.holder?_eq, Bindings.holds_eq_isSome]
  cases hvalue : (tree.own scope).get? name with
  | none =>
    cases tree.parent? scope <;> rfl
  | some value => exact hvalue

end Nested

/-! ## Assigning -/

/-- The scope that an assignment writes to: the first one that holds the name on the way outward, or
the scope itself if there is none. -/
def IsTarget (tree : ScopeTree α) (scope : Nat) (name : String) (written : Nat) : Prop :=
  tree.Nearest name scope written ∨ (∀ holder, ¬ tree.Nearest name scope holder) ∧ written = scope

/-- A scope that holds a name is one of the tree. -/
theorem lt_of_holds {tree : ScopeTree α} {scope : Nat} {name : String}
    (h : (tree.own scope).holds name = true) : scope < tree.scopes.length := by
  by_cases hlt : scope < tree.scopes.length
  · exact hlt
  · rw [own, List.getElem?_eq_none (Nat.le_of_not_lt hlt)] at h
    cases h

/-- The nearest scope with a name holds it. -/
theorem Nearest.holds {tree : ScopeTree α} {scope holder : Nat} {name : String}
    (h : tree.Nearest name scope holder) : (tree.own holder).holds name = true := by
  induction h with
  | here hholds => exact hholds
  | outward _ _ _ ih => exact ih

section Assign

variable {tree : ScopeTree α} {scope written : Nat} {name : String}

/-- The scope that is found on the way outward, or the scope itself, is the target. -/
theorem isTarget_getD (h : tree.Nested) (scope : Nat) (name : String) :
    tree.IsTarget scope name ((tree.holder? scope name).getD scope) := by
  cases hholder : tree.holder? scope name with
  | none =>
    refine .inr ⟨fun holder hnearest => ?_, rfl⟩
    rw [h.nearest_iff, hholder] at hnearest
    cases hnearest
  | some holder => exact .inl (h.nearest_iff.2 hholder)

/-- There is one target. -/
theorem IsTarget.unique {other : Nat} (h : tree.Nested)
    (hwritten : tree.IsTarget scope name written) (hother : tree.IsTarget scope name other) :
    other = written := by
  rcases hwritten with hnearest | ⟨hnone, rfl⟩
  · rcases hother with hnearest' | ⟨hnone', -⟩
    · rw [h.nearest_iff] at hnearest hnearest'
      exact Option.some.inj (hnearest'.symm.trans hnearest)
    · exact absurd hnearest (hnone' written)
  · rcases hother with hnearest' | ⟨-, heq⟩
    · exact absurd hnearest' (hnone other)
    · exact heq

/-- The target is a scope of the tree. -/
theorem IsTarget.lt (h : tree.IsTarget scope name written) (hscope : scope < tree.scopes.length) :
    written < tree.scopes.length := by
  rcases h with hnearest | ⟨-, rfl⟩
  · exact lt_of_holds hnearest.holds
  · exact hscope

variable (value : α)

/-- An assignment binds the name in the scope that it writes to, and no other scope changes. -/
theorem own_assign (h : tree.Nested) (hwritten : tree.IsTarget scope name written)
    (hscope : scope < tree.scopes.length) (other : Nat) :
    (tree.assign scope name value).own other =
      if other = written then (tree.own other).insert name value else tree.own other := by
  have htarget : (tree.holder? scope name).getD scope = written :=
    hwritten.unique h (isTarget_getD h scope name)
  simp only [own, assign, htarget, List.getElem?_modify]
  by_cases hother : other = written
  · subst hother
    rw [if_pos rfl, List.getElem?_eq_getElem (hwritten.lt hscope)]
    simp
  · simp [if_neg hother, Ne.symm hother]

/-- Other names are seen as before. -/
theorem lookup?_assign_of_ne (h : tree.Nested) (hwritten : tree.IsTarget scope name written)
    (hscope : scope < tree.scopes.length) {other : String} (hother : other ≠ name) (viewer : Nat) :
    (tree.assign scope name value).lookup? viewer other = tree.lookup? viewer other := by
  induction viewer using h.outward_induction with
  | step viewer ih =>
    -- the entry of another name is the same in every scope, the written one included
    have hvalue : ((tree.assign scope name value).own viewer).get? other =
        (tree.own viewer).get? other := by
      rw [own_assign value h hwritten hscope]
      split
      · rw [Bindings.get?_insert, if_neg (Ne.symm hother)]
      · rfl
    rw [(nested_assign h scope name value).lookup?_eq, h.lookup?_eq, hvalue, parent?_assign]
    cases hparent : tree.parent? viewer with
    | none => rfl
    | some parent => rw [Option.bind_some, Option.bind_some, ih parent hparent]

/-- The new value is seen from where the written scope is the first one that holds the name. -/
theorem lookup?_assign_of_nearest (h : tree.Nested) (hwritten : tree.IsTarget scope name written)
    (hscope : scope < tree.scopes.length) {viewer : Nat}
    (hviewer : (tree.assign scope name value).Nearest name viewer written) :
    (tree.assign scope name value).lookup? viewer name = some value := by
  rw [(nested_assign h scope name value).nearest_iff] at hviewer
  rw [lookup?, hviewer, Option.bind_some, own_assign value h hwritten hscope, if_pos rfl,
    Bindings.get?_insert, if_pos rfl]

/-- From everywhere else the name is seen as before. -/
theorem lookup?_assign_of_not_nearest (h : tree.Nested)
    (hwritten : tree.IsTarget scope name written) (hscope : scope < tree.scopes.length)
    {viewer : Nat} (hviewer : ¬ (tree.assign scope name value).Nearest name viewer written) :
    (tree.assign scope name value).lookup? viewer name = tree.lookup? viewer name := by
  induction viewer using h.outward_induction with
  | step viewer ih =>
    have hother : viewer ≠ written := by
      rintro rfl
      apply hviewer
      apply Nearest.here
      rw [own_assign value h hwritten hscope, if_pos rfl, Bindings.holds_insert_self]
    have hown := own_assign value h hwritten hscope viewer
    rw [if_neg hother] at hown
    rw [(nested_assign h scope name value).lookup?_eq, h.lookup?_eq, hown, parent?_assign]
    cases hvalue : (tree.own viewer).get? name with
    | some found => rfl
    | none =>
      cases hparent : tree.parent? viewer with
      | none => rfl
      | some parent =>
        -- what the scope around saw first, the viewer would see first
        refine ih parent hparent fun hnearest => hviewer (.outward ?_ ?_ hnearest)
        · rw [hown, Bindings.holds_eq_isSome, hvalue]
          rfl
        · rw [parent?_assign, hparent]

end Assign

/-- **An assignment writes one entry of one scope.** In every tree that can be made, assigning a
name in a scope writes to the first scope outward that holds it, or to the scope itself if there is
none: there it writes the entry of the name, in its place or at the end, and it keeps all other
scopes and how they lie in one another. Afterwards the new value is seen from where the written
scope is the first one that holds the name; from everywhere else the name is seen as before, and so
are all other names. -/
theorem assign_writes_one_entry {tree : ScopeTree α} (hreachable : Reachable tree) {scope : Nat}
    (hscope : scope < tree.scopes.length) (name : String) (value : α) :
    ∃ written < tree.scopes.length, tree.IsTarget scope name written ∧
      WritesEntry name value (tree.own written).entries
        ((tree.assign scope name value).own written).entries ∧
      (tree.assign scope name value).scopes.length = tree.scopes.length ∧
      (∀ other, (tree.assign scope name value).parent? other = tree.parent? other) ∧
      (∀ other, other ≠ written →
        (tree.assign scope name value).own other = tree.own other) ∧
      ∀ viewer,
        ((tree.assign scope name value).Nearest name viewer written →
          (tree.assign scope name value).lookup? viewer name = some value) ∧
        (¬ (tree.assign scope name value).Nearest name viewer written →
          (tree.assign scope name value).lookup? viewer name = tree.lookup? viewer name) ∧
        ∀ other, other ≠ name →
          (tree.assign scope name value).lookup? viewer other = tree.lookup? viewer other := by
  have hnested := hreachable.nested
  have htarget := isTarget_getD hnested scope name
  have hown := own_assign value hnested htarget hscope
  -- the target and its entry; then what stays: the scopes, their parents and the other entries
  refine ⟨_, htarget.lt hscope, htarget, ?_, ?_, parent?_assign tree scope name value, ?_, ?_⟩
  · rw [hown, if_pos rfl]
    exact writesEntry_bindEntry name value _
  · rw [assign, List.length_modify]
  · intro other hother
    rw [hown, if_neg hother]
  · intro viewer
    exact ⟨lookup?_assign_of_nearest value hnested htarget hscope,
      lookup?_assign_of_not_nearest value hnested htarget hscope,
      fun other hother => lookup?_assign_of_ne value hnested htarget hscope hother viewer⟩

/-- A scope inside one that holds a name, which the scope around both holds as well. -/
def shadowing : ScopeTree Value :=
  (((({} : ScopeTree Value).child 0).assign 1 "x" (.boolean false)).assign 0 "x"
    (.boolean false)).child 1

/-- Of two scopes that hold a name, the inner one is written and the outer one keeps its value. -/
theorem assign_writes_one_entry_of_shadowing :
    Reachable shadowing ∧ 2 < shadowing.scopes.length ∧
      shadowing.IsTarget 2 "x" 1 ∧
      (shadowing.assign 2 "x" (.boolean true)).lookup? 2 "x" = some (.boolean true) ∧
      (shadowing.assign 2 "x" (.boolean true)).lookup? 0 "x" = some (.boolean false) := by
  have hreachable : Reachable shadowing :=
    ((((Reachable.root.child (by decide)).assign "x" _ (by decide)).assign "x" _
      (by decide +kernel)).child (by decide +kernel))
  have hscope : 2 < shadowing.scopes.length := by decide +kernel
  have hafter := nested_assign hreachable.nested 2 "x" (.boolean true)
  have hone : shadowing.IsTarget 2 "x" 1 :=
    .inl (hreachable.nested.nearest_iff.2 (by decide +kernel))
  obtain ⟨written, -, htarget, -, -, -, -, hviews⟩ :=
    assign_writes_one_entry hreachable hscope "x" (.boolean true)
  -- the scope inside is written, so the one around keeps its value
  obtain rfl := hone.unique hreachable.nested htarget
  refine ⟨hreachable, hscope, hone, (hviews 2).1 ?_, ((hviews 0).2.1 ?_).trans ?_⟩
  · rw [hafter.nearest_iff]
    decide +kernel
  · rw [hafter.nearest_iff]
    decide +kernel
  · decide +kernel

end ScopeTree

end Scriptlet
