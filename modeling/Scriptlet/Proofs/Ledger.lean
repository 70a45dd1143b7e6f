import Mathlib.Data.List.Induction
import Scriptlet.Proofs.Simulation

/-! # Ledgers

Everything that brings a value to light is written down in order: strings that are made when a text
is read or given from outside, names that are bound from outside, and evaluations of nodes with their
values. Such a list is a ledger if each entry is accounted for by those before it: a node passes on a
value that was there, or its string is a new one. In a ledger a handle stands for one string, which
is made once and then passed on.

* `Sight.replay`: the bindings that entries amount to.
* `Ledger`: entries that account for the bindings and the handles of a session.
* `AreAccounted.eq_of_handle_eq`: a handle stands for one string.
* `AreAccounted.passed_on`: behind the entry that made a string, others only pass it on. -/

namespace Scriptlet

/-- An entry of a ledger. -/
inductive Sight where
  /-- A string was made, as a literal of a text or from outside. -/
  | made (value : StringValue)
  /-- A name was bound from outside. -/
  | bound (name : String) (value : Value)
  /-- A node was evaluated. -/
  | evaluated (expr : Expr) (value : Value)
  deriving Repr, DecidableEq

/-- The string that a value is, if it is one. -/
def Value.string? : Value → Option StringValue
  | .string value => some value
  | _ => none

namespace Expr

/-- Whether a node is a name. -/
def isName : Expr → Bool
  | .name .. => true
  | _ => false

/-- Whether evaluating a node passes on a value that was there before. -/
def passesOn : Expr → Bool
  | .name .. | .string .. => true
  | .binary _ op _ _ => op == .assign
  | _ => false

end Expr

namespace Sight

/-- The value that comes to light. -/
def value : Sight → Value
  | .made value => .string value
  | .bound _ value | .evaluated _ value => value

/-- The string that comes to light, if it is one. -/
def string? (sight : Sight) : Option StringValue :=
  sight.value.string?

/-- The string that comes into being: one that is made, or the value of a node that does not pass on
another. -/
def makes? : Sight → Option StringValue
  | .made value => some value
  | .bound .. => none
  | .evaluated expr value => if expr.passesOn then none else value.string?

/-- The name that gets a value. -/
def binds? : Sight → Option (String × Value)
  | .bound name value => some (name, value)
  | .evaluated (.binary (.name spelling _) op _ _) value =>
    if op.isAssignment then some (spelling, value) else none
  | _ => none

/-- The bindings behind an entry. -/
def rebind (bindings : Bindings Value) (sight : Sight) : Bindings Value :=
  match sight.binds? with
  | some (name, value) => bindings.insert name value
  | none => bindings

/-- The bindings that a row of entries amounts to. -/
def replay (past : List Sight) : Bindings Value :=
  past.foldl rebind .empty

/-- The strings that came to light. -/
def strings (past : List Sight) : List StringValue :=
  past.filterMap string?

/-- A handle that no string has which came to light. -/
def IsNew (past : List Sight) (handle : Nat) : Prop :=
  ∀ value ∈ strings past, value.handle ≠ handle

/-- An entry is accounted for by those before it. -/
inductive Accounted (past : List Sight) : Sight → Prop where
  /-- A string that is made is new. -/
  | made {value : StringValue} (hnew : IsNew past value.handle) : Accounted past (.made value)
  /-- Only strings that were there are bound from outside. -/
  | bound {name : String} {value : Value} (hknown : ∀ string ∈ value.string?, string ∈ strings past) :
      Accounted past (.bound name value)
  /-- A string node yields the string it holds. -/
  | string {value : StringValue} {place : Option Position} (hknown : value ∈ strings past) :
      Accounted past (.evaluated (.string value place) (.string value))
  /-- A name yields the value that it was bound to last. -/
  | name {spelling : String} {place : Option Position} :
      Accounted past (.evaluated (.name spelling place) ((replay past).read spelling))
  /-- An assignment passes on the value of its right side, which was evaluated just before. -/
  | assign {spelling : String} {place place' : Option Position} {right : Expr} {value : Value}
      (hlast : past.getLast? = some (.evaluated right value)) :
      Accounted past (.evaluated (.binary (.name spelling place) .assign right place') value)
  /-- Every other node yields no string or a new one. -/
  | computed {expr : Expr} {value : Value} (hexpr : expr.passesOn = false)
      (hnew : ∀ string ∈ value.string?, IsNew past string.handle) :
      Accounted past (.evaluated expr value)

/-- Entries each of which is accounted for by those before it. -/
inductive AreAccounted : List Sight → Prop where
  | nil : AreAccounted []
  | concat {past : List Sight} {sight : Sight} (hpast : AreAccounted past)
      (hsight : Accounted past sight) : AreAccounted (past ++ [sight])

variable {past : List Sight}

/-- One more entry rebinds what those before it amount to. -/
theorem replay_concat (past : List Sight) (sight : Sight) :
    replay (past ++ [sight]) = rebind (replay past) sight := by
  rw [replay, List.foldl_append, List.foldl_cons, List.foldl_nil, replay]

/-- The strings of two stretches come to light one stretch after the other. -/
theorem strings_append (past later : List Sight) :
    strings (past ++ later) = strings past ++ strings later :=
  List.filterMap_append

/-- The strings of a longer stretch are those before it and that of its last entry. -/
theorem mem_strings_concat {sight : Sight} {value : StringValue} :
    value ∈ strings (past ++ [sight]) ↔ value ∈ strings past ∨ sight.string? = some value := by
  rw [strings_append, List.mem_append, strings, strings, List.mem_filterMap, List.mem_filterMap]
  simp only [List.mem_singleton, exists_eq_left]

/-- An entry that binds a name binds it to the value it shows. -/
theorem value_of_binds? {sight : Sight} {binding : String × Value} (h : sight.binds? = some binding) :
    binding.2 = sight.value := by
  unfold binds? at h
  split at h
  · cases h
    rfl
  · split at h
    · cases h
      rfl
    · cases h
  · cases h

/-- A string that a name reads as came to light when the name was bound. -/
theorem mem_strings_of_read {spelling : String} {string : StringValue}
    (h : ((replay past).read spelling).string? = some string) : string ∈ strings past := by
  induction past using List.reverseRecOn with
  | nil => cases h
  | append_singleton past sight ih =>
    rw [mem_strings_concat]
    rw [replay_concat, rebind] at h
    -- by the last entry that binds the name, since it decides what is read
    cases hbinds : sight.binds? with
    | none =>
      rw [hbinds] at h
      exact .inl (ih h)
    | some binding =>
      rw [hbinds, Bindings.read, Bindings.get?_insert] at h
      by_cases hname : binding.1 = spelling
      · rw [if_pos hname] at h
        rw [string?, ← value_of_binds? hbinds]
        exact .inr h
      · rw [if_neg hname] at h
        exact .inl (ih h)

end Sight

/-- What a session keeps of a machine. -/
def Machine.kept (machine : Machine) : Session :=
  ⟨machine.bindings, machine.nextHandle⟩

open Sight

/-- **Entries account for a session**: each is accounted for by those before it, the bindings are
what they amount to, and their strings have handles that were given out. -/
structure Ledger (past : List Sight) (session : Session) : Prop where
  accounted : AreAccounted past
  replayed : session.bindings = replay past
  below : ∀ value ∈ strings past, value.handle < session.nextHandle

namespace Ledger

variable {past : List Sight} {session : Session}

/-- An entry may be added that is accounted for. -/
theorem concat (h : Ledger past session) {sight : Sight} {session' : Session}
    (hsight : Accounted past sight) (hbindings : session'.bindings = rebind session.bindings sight)
    (hle : session.nextHandle ≤ session'.nextHandle)
    (hbelow : ∀ value ∈ sight.string?, value.handle < session'.nextHandle) :
    Ledger (past ++ [sight]) session' where
  accounted := h.accounted.concat hsight
  replayed := by rw [hbindings, h.replayed, replay_concat]
  below value hvalue := by
    rcases mem_strings_concat.1 hvalue with hvalue | hvalue
    · exact Nat.lt_of_lt_of_le (h.below value hvalue) hle
    · exact hbelow value hvalue

/-- More handles may be taken. -/
theorem wait (h : Ledger past session) {nextHandle : Nat} (hle : session.nextHandle ≤ nextHandle) :
    Ledger past ⟨session.bindings, nextHandle⟩ :=
  ⟨h.accounted, h.replayed, fun value hvalue => Nat.lt_of_lt_of_le (h.below value hvalue) hle⟩

/-- A handle that was not given out is new. -/
theorem isNew (h : Ledger past session) {handle : Nat} (hle : session.nextHandle ≤ handle) :
    IsNew past handle :=
  fun value hvalue => Nat.ne_of_lt (Nat.lt_of_lt_of_le (h.below value hvalue) hle)

/-- A string that was there stays below the next free handle. -/
theorem below_of_known (h : Ledger past session) {value : Value}
    (hknown : ∀ string ∈ value.string?, string ∈ strings past) :
    ∀ string ∈ value.string?, string.handle < session.nextHandle :=
  fun string hstring => h.below string (hknown string hstring)

end Ledger

/-! ## What ledgers tell of strings -/

namespace Sight

section Accounts

variable {past before after : List Sight} {sight : Sight} {string other : StringValue}

/-- A string that comes to light is made there and new, or was there before and is passed on. -/
theorem Accounted.made_or_passed (h : Accounted past sight) (hstring : sight.string? = some string) :
    sight.makes? = some string ∧ IsNew past string.handle ∨
      sight.makes? = none ∧ string ∈ strings past := by
  cases h with
  | made hnew =>
    cases hstring
    exact .inl ⟨rfl, hnew⟩
  | bound hknown => exact .inr ⟨rfl, hknown string hstring⟩
  | string hknown =>
    cases hstring
    exact .inr ⟨rfl, hknown⟩
  -- a name and an assignment pass on what came to light; only other nodes make strings
  | name => exact .inr ⟨rfl, mem_strings_of_read hstring⟩
  | assign hlast =>
    exact .inr ⟨rfl, List.mem_filterMap.2 ⟨_, List.mem_of_getLast? hlast, hstring⟩⟩
  | computed hexpr hnew =>
    refine .inl ⟨?_, hnew string hstring⟩
    rw [makes?, hexpr]
    exact hstring

/-- Entries up to some point are accounted for, and so is the next one. -/
theorem AreAccounted.split (h : AreAccounted (before ++ sight :: after)) :
    AreAccounted before ∧ Accounted before sight := by
  generalize hpast : before ++ sight :: after = past at h
  induction h generalizing after with
  | nil => cases List.append_ne_nil_of_right_ne_nil before (List.cons_ne_nil sight after) hpast
  | @concat past last hpast' hlast ih =>
    rcases List.eq_nil_or_concat after with rfl | ⟨others, final, rfl⟩
    · obtain ⟨rfl, hsight⟩ := List.append_inj' hpast rfl
      cases hsight
      exact ⟨hpast', hlast⟩
    · rw [List.concat_eq_append, ← List.cons_append, ← List.append_assoc] at hpast
      exact ih (List.append_inj' hpast rfl).1

/-- **A handle stands for one string.** -/
theorem AreAccounted.eq_of_handle_eq (h : AreAccounted past) (hstring : string ∈ strings past)
    (hother : other ∈ strings past) (hhandle : string.handle = other.handle) : string = other := by
  induction h with
  | nil => cases hstring
  | @concat past sight _ hsight ih =>
    -- a string that only the last entry shows is new, so that it is not one of those before
    rcases mem_strings_concat.1 hstring with hstring | hstring
    · rcases mem_strings_concat.1 hother with hother | hother
      · exact ih hstring hother
      · rcases hsight.made_or_passed hother with ⟨-, hnew⟩ | ⟨-, hother⟩
        · exact absurd hhandle (hnew string hstring)
        · exact ih hstring hother
    · rcases mem_strings_concat.1 hother with hother | hother
      · rcases hsight.made_or_passed hstring with ⟨-, hnew⟩ | ⟨-, hstring⟩
        · exact absurd hhandle.symm (hnew other hother)
        · exact ih hstring hother
      · exact Option.some.inj (hstring.symm.trans hother)

/-- A string that comes into being comes to light there. -/
theorem string?_of_makes? (h : sight.makes? = some string) : sight.string? = some string := by
  cases sight with
  | made => exact h
  | bound => cases h
  | evaluated expr value =>
    rw [makes?] at h
    split at h
    · cases h
    · exact h

/-- A string that comes into being is new. -/
theorem AreAccounted.isNew (h : AreAccounted (before ++ sight :: after))
    (hmakes : sight.makes? = some string) : IsNew before string.handle := by
  rcases h.split.2.made_or_passed (string?_of_makes? hmakes) with ⟨-, hnew⟩ | ⟨hnone, -⟩
  · exact hnew
  · rw [hmakes] at hnone
    cases hnone

/-- **Behind the entry that made a string, others only pass it on.** -/
theorem AreAccounted.passed_on (h : AreAccounted (before ++ sight :: after))
    (hmakes : sight.makes? = some string) {later : Sight} (hlater : later ∈ after)
    (hother : later.string? = some other) (hhandle : other.handle = string.handle) :
    later.makes? = none ∧ other = string := by
  obtain ⟨between, behind, rfl⟩ := List.append_of_mem hlater
  have hsplit : before ++ sight :: (between ++ later :: behind) =
      (before ++ sight :: between) ++ later :: behind := by
    rw [List.append_assoc, List.cons_append]
  have hstring : string ∈ strings (before ++ sight :: between) :=
    List.mem_filterMap.2 ⟨sight, List.mem_append_right _ List.mem_cons_self,
      string?_of_makes? hmakes⟩
  rw [hsplit] at h
  obtain ⟨hbefore, hsight⟩ := h.split
  -- a string that is made has a new handle, and this one is not new
  rcases hsight.made_or_passed hother with ⟨-, hnew⟩ | ⟨hnone, hother⟩
  · exact absurd hhandle.symm (hnew string hstring)
  · exact ⟨hnone, hbefore.eq_of_handle_eq hother hstring hhandle⟩

/-- Every string was made at some point. -/
theorem AreAccounted.exists_makes (h : AreAccounted past) (hstring : string ∈ strings past) :
    ∃ sight ∈ past, sight.makes? = some string := by
  induction h with
  | nil => cases hstring
  | @concat past sight _ hsight ih =>
    have hearlier (hstring : string ∈ strings past) :
        ∃ found ∈ past ++ [sight], found.makes? = some string := by
      obtain ⟨found, hfound, hmakes⟩ := ih hstring
      exact ⟨found, List.mem_append_left _ hfound, hmakes⟩
    rcases mem_strings_concat.1 hstring with hstring | hstring
    · exact hearlier hstring
    · rcases hsight.made_or_passed hstring with ⟨hmakes, -⟩ | ⟨-, hstring⟩
      · exact ⟨sight, List.mem_append_right _ (List.mem_singleton.2 rfl), hmakes⟩
      · exact hearlier hstring

/-- No two strings that came into being share a handle. -/
theorem AreAccounted.pairwise_makes (h : AreAccounted past) :
    (past.filterMap makes?).Pairwise fun string other => string.handle ≠ other.handle := by
  induction h with
  | nil => exact .nil
  | @concat past sight hpast hsight ih =>
    rw [List.filterMap_append, List.pairwise_append]
    refine ⟨ih, ?_, ?_⟩
    · cases hmakes : sight.makes? with
      | none => simp [hmakes]
      | some string => simp [hmakes]
    · intro string hstring other hother
      obtain ⟨maker, hmaker, hmakes⟩ := List.mem_filterMap.1 hstring
      obtain ⟨last, hlast, hmakes'⟩ := List.mem_filterMap.1 hother
      cases List.mem_singleton.1 hlast
      -- the last entry makes a string with a handle that none before it has
      have hnew := (hpast.concat hsight).isNew hmakes'
      exact hnew string (List.mem_filterMap.2 ⟨maker, hmaker, string?_of_makes? hmakes⟩)

end Accounts

end Sight

end Scriptlet
