import Mathlib.Data.List.Forall2
import Scriptlet.Proofs.Scopes

/-! # Views of a scope

What can be seen from a scope can be looked up name by name, listed, counted, or listed with its
values. A name that several scopes hold is listed once, where the way outward meets it first, and
that is where its value is found.

* `ListsFirst`: names listed once each, in the order in which they first appear.
* `Way`: the scopes from a scope outward.
* `views_agree`: all views of a scope show the same names. -/

namespace Scriptlet

variable {α : Type}

/-! ## First appearances -/

/-- All names that appear are listed, each once and in the order in which they first appear. -/
structure ListsFirst (appearances names : List String) : Prop where
  nodup : names.Nodup
  mem_iff : ∀ name, name ∈ names ↔ name ∈ appearances
  order : names.Pairwise fun name later => appearances.idxOf name < appearances.idxOf later

namespace ScopeTree

/-- To keep the first of equal names loses no name. -/
theorem mem_firsts {name : String} {appearances : List String} :
    name ∈ firsts appearances ↔ name ∈ appearances := by
  induction appearances with
  | nil => rfl
  | cons first rest ih =>
    by_cases hname : name = first
    · simp [firsts, hname]
    · simp [firsts, hname, ih]

/-- Of equal names only the first is kept. -/
theorem nodup_firsts (appearances : List String) : (firsts appearances).Nodup := by
  induction appearances with
  | nil => exact List.nodup_nil
  | cons first rest ih =>
    rw [firsts, List.nodup_cons]
    exact ⟨by simp, ih.filter _⟩

/-- Names are listed behind those that appear before them. -/
theorem pairwise_firsts (appearances : List String) :
    (firsts appearances).Pairwise fun name later =>
      appearances.idxOf name < appearances.idxOf later := by
  induction appearances with
  | nil => exact .nil
  | cons first rest ih =>
    -- behind the first name all places are greater by one
    have hbehind {name : String} (h : name ∈ (firsts rest).filter (· != first)) :
        (first :: rest).idxOf name = rest.idxOf name + 1 := by
      have hname : name ≠ first := bne_iff_ne.1 (List.mem_filter.1 h).2
      exact List.idxOf_cons_ne rest hname.symm
    rw [firsts, List.pairwise_cons]
    constructor
    · intro later hlater
      rw [List.idxOf_cons_self, hbehind hlater]
      exact Nat.succ_pos _
    · -- the others are listed as they are without the first one, all of them one place later
      refine (ih.filter _).imp_of_mem fun hname hlater hlt => ?_
      rw [hbehind hname, hbehind hlater]
      exact Nat.succ_lt_succ hlt

/-- The names that are kept are listed in the order of their first appearance. -/
theorem listsFirst_firsts (appearances : List String) :
    ListsFirst appearances (firsts appearances) where
  nodup := nodup_firsts appearances
  mem_iff _ := mem_firsts
  order := pairwise_firsts appearances

/-! ## The scopes on the way outward -/

/-- The scopes that lie around one another, from a scope to the outermost one. -/
inductive Way (tree : ScopeTree α) : Nat → List Nat → Prop where
  /-- Nothing lies around the outermost scope. -/
  | outermost {scope : Nat} : tree.parent? scope = none → Way tree scope [scope]
  /-- The way goes on from the scope around. -/
  | outward {scope parent : Nat} {way : List Nat} : tree.parent? scope = some parent →
      Way tree parent way → Way tree scope (scope :: way)

/-- The way outward begins with the scope itself and goes on as from the scope around it. -/
theorem Nested.chain_eq {tree : ScopeTree α} (h : tree.Nested) {scope : Nat}
    (hscope : scope < tree.scopes.length) :
    tree.chain scope = scope :: ((tree.parent? scope).map tree.chain).getD [] := by
  have hfound := List.getElem?_eq_getElem hscope
  have hparent : tree.parent? scope = tree.scopes[scope].parent := by
    rw [parent?, hfound]
    rfl
  rw [chain, hfound, hparent]
  cases hfree : tree.scopes[scope].parent with
  | none => simp [hfree]
  | some parent =>
    -- the guard of the recursion holds, since parents are older than their scopes
    have hlt : parent < scope := h scope parent (hparent.trans hfree)
    simp [hfree, hlt]

/-- The chain of a scope is the way outward from it. -/
theorem Nested.way_chain {tree : ScopeTree α} (h : tree.Nested) {scope : Nat}
    (hscope : scope < tree.scopes.length) : tree.Way scope (tree.chain scope) := by
  induction scope using h.outward_induction with
  | step scope ih =>
    rw [h.chain_eq hscope]
    cases hparent : tree.parent? scope with
    | none => exact .outermost hparent
    | some parent =>
      exact .outward hparent (ih parent hparent (Nat.lt_trans (h scope parent hparent) hscope))

end ScopeTree

/-! ## Names that can be seen -/

/-- The names of bindings are those that they hold. -/
theorem Bindings.mem_names_iff {bindings : Bindings α} {name : String} :
    name ∈ bindings.names ↔ bindings.holds name = true := by
  simp [names, holds]

namespace ScopeTree

/-- A name has a value just if a scope on the way outward holds it. -/
theorem lookup?_ne_none_iff {tree : ScopeTree α} {scope : Nat} {name : String} :
    tree.lookup? scope name ≠ none ↔
      ∃ number ∈ tree.chain scope, (tree.own number).holds name = true := by
  rw [lookup?]
  cases hholder : tree.holder? scope name with
  | none =>
    rw [holder?, List.find?_eq_none] at hholder
    simp only [Option.bind_none, ne_eq, not_true_eq_false, false_iff, not_exists, not_and]
    exact hholder
  | some holder =>
    have hmem : holder ∈ tree.chain scope := List.mem_of_find?_eq_some hholder
    have hholds : (tree.own holder).holds name = true :=
      List.find?_some (p := fun number => (tree.own number).holds name) hholder
    refine iff_of_true ?_ ⟨holder, hmem, hholds⟩
    rw [Bindings.holds_eq_isSome, Option.isSome_iff_ne_none] at hholds
    exact hholds

/-- The names that are seen from a scope are those with a value there. -/
theorem mem_names_iff {tree : ScopeTree α} {scope : Nat} {name : String} :
    name ∈ tree.names scope ↔ tree.lookup? scope name ≠ none := by
  rw [names, mem_firsts, List.mem_flatMap, lookup?_ne_none_iff]
  simp only [Bindings.mem_names_iff]

/-- **All views of a scope agree.** In every tree that can be made, the names that are listed for a
scope are those that have a value there, each once and in the order in which they first appear from
the scope outward. They are the names of which the scope tells that it contains them, as many as it
counts, and in the list of items each of them stands at its place with its value. -/
theorem views_agree {tree : ScopeTree α} (hreachable : Reachable tree) {scope : Nat}
    (hscope : scope < tree.scopes.length) :
    ∃ way, tree.Way scope way ∧
      ListsFirst (way.flatMap fun number => (tree.own number).names) (tree.names scope) ∧
      (∀ name, name ∈ tree.names scope ↔ tree.lookup? scope name ≠ none) ∧
      (∀ name, tree.contains scope name = true ↔ name ∈ tree.names scope) ∧
      tree.size scope = (tree.names scope).length ∧
      List.Forall₂ (fun name item =>
          item = (name, tree.lookup? scope name) ∧ tree.lookup? scope name ≠ none)
        (tree.names scope) (tree.items scope) := by
  refine ⟨_, hreachable.nested.way_chain hscope, listsFirst_firsts _, fun name => mem_names_iff,
    fun name => ?_, rfl, ?_⟩
  · rw [contains, Option.isSome_iff_ne_none, mem_names_iff]
  · rw [items, List.forall₂_map_right_iff, List.forall₂_same]
    intro name hname
    exact ⟨rfl, mem_names_iff.1 hname⟩

/-- Two scopes that hold the same name, and one name more each. -/
def overlapping : ScopeTree Value :=
  ((((({} : ScopeTree Value).child 0).assign 1 "x" (.boolean true)).assign 1 "z"
    (.boolean true)).assign 0 "x" (.boolean false)).assign 0 "y" (.boolean false)

/-- A name that both scopes hold is seen once, with the value and in the place that it has in the
inner one. -/
theorem views_agree_of_overlapping :
    Reachable overlapping ∧ 1 < overlapping.scopes.length ∧
      overlapping.names 1 = ["x", "z", "y"] ∧ overlapping.size 1 = 3 ∧
      overlapping.lookup? 1 "x" = some (.boolean true) ∧ overlapping.contains 1 "y" = true ∧
      overlapping.contains 0 "z" = false := by
  have hreachable : Reachable overlapping :=
    ((((Reachable.root.child (by decide)).assign "x" _ (by decide)).assign "z" _
      (by decide +kernel)).assign "x" _ (by decide +kernel)).assign "y" _ (by decide +kernel)
  have hscope : 1 < overlapping.scopes.length := by decide +kernel
  have hnames : overlapping.names 1 = ["x", "z", "y"] := by decide +kernel
  have houter : overlapping.names 0 = ["x", "y"] := by decide +kernel
  obtain ⟨-, -, -, -, hcontains, hsize, -⟩ := views_agree hreachable hscope
  obtain ⟨-, -, -, -, hcontains', -, -⟩ :=
    views_agree hreachable (Nat.lt_of_succ_lt hscope)
  -- size and membership are read off the names that are seen
  refine ⟨hreachable, hscope, hnames, ?_, by decide +kernel, ?_, ?_⟩
  · rw [hsize, hnames]
    rfl
  · rw [hcontains, hnames]
    decide
  · rw [Bool.eq_false_iff, ne_eq, hcontains', houter]
    decide

end ScopeTree

end Scriptlet
