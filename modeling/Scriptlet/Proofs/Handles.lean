import Scriptlet.Proofs.Runs
import Scriptlet.Proofs.Spelling
import Scriptlet.Session

/-! # Handles that were given out

A session counts the handles it has given out. It is sound if every string that it has bound has one
of them, so that a new string is never mistaken for an old one. Sessions begin sound and stay so,
whatever is run in them and however that ends. -/

namespace Scriptlet

/-- A value is no string, or one with a handle below a bound. -/
def Value.IsBelow (bound : Nat) : Value → Prop
  | .number _ | .boolean _ => True
  | .string value => value.handle < bound

/-- A value below a bound is below every greater one. -/
theorem Value.IsBelow.mono {bound bound' : Nat} {value : Value} (h : value.IsBelow bound)
    (hle : bound ≤ bound') : value.IsBelow bound' := by
  cases value with
  | number => trivial
  | boolean => trivial
  | string value => exact Nat.lt_of_lt_of_le h hle

/-- What an operation yields is below the handle that follows that of a new string. -/
theorem Yield.isBelow_toValue (yield : Yield) (handle : Nat) :
    (yield.toValue handle).IsBelow (handle + 1) := by
  cases yield with
  | number => trivial
  | boolean => trivial
  | newString content => exact Nat.lt_succ_self handle

namespace Bindings

/-- All strings that are bound have handles below a bound. -/
def AreBelow (bound : Nat) (bindings : Bindings Value) : Prop :=
  ∀ entry ∈ bindings.entries, entry.2.IsBelow bound

variable {bound bound' : Nat} {bindings : Bindings Value}

/-- Bindings below a bound are below every greater one. -/
theorem AreBelow.mono (h : bindings.AreBelow bound) (hle : bound ≤ bound') :
    bindings.AreBelow bound' :=
  fun entry hmem => (h entry hmem).mono hle

/-- Where nothing is bound, all that is bound is below any bound. -/
theorem areBelow_empty (bound : Nat) : (empty : Bindings Value).AreBelow bound :=
  nofun

/-- Every entry after binding a name is that of the name or was there before. -/
theorem mem_bindEntry {α : Type} {name : String} {value : α} {entries : List (String × α)}
    {entry : String × α} (h : entry ∈ bindEntry name value entries) :
    entry = (name, value) ∨ entry ∈ entries := by
  induction entries with
  | nil => exact .inl (List.mem_singleton.1 h)
  | cons first rest ih =>
    unfold bindEntry at h
    -- the entry is overwritten here, or further on
    split at h
    · rcases List.mem_cons.1 h with rfl | hrest
      · exact .inl rfl
      · exact .inr (List.mem_cons_of_mem _ hrest)
    · rcases List.mem_cons.1 h with rfl | hrest
      · exact .inr List.mem_cons_self
      · rcases ih hrest with hnew | hold
        · exact .inl hnew
        · exact .inr (List.mem_cons_of_mem _ hold)

/-- A value below a bound may be bound to a name. -/
theorem AreBelow.insert (h : bindings.AreBelow bound) {value : Value} (hvalue : value.IsBelow bound)
    (name : String) : (bindings.insert name value).AreBelow bound := by
  intro entry hmem
  rcases mem_bindEntry hmem with rfl | hold
  · exact hvalue
  · exact h entry hold

/-- The value of a name is among those that are bound. -/
theorem AreBelow.get? (h : bindings.AreBelow bound) {name : String} {value : Value}
    (hvalue : bindings.get? name = some value) : value.IsBelow bound := by
  rw [Bindings.get?, Option.map_eq_some_iff] at hvalue
  obtain ⟨entry, hentry, rfl⟩ := hvalue
  exact h entry (List.mem_of_find?_eq_some hentry)

end Bindings

/-- Every string that a machine has bound has a handle that was given out. -/
def Machine.IsSound (machine : Machine) : Prop :=
  machine.bindings.AreBelow machine.nextHandle

/-- Every string that a session has bound has a handle that was given out. -/
def Session.IsSound (session : Session) : Prop :=
  session.bindings.AreBelow session.nextHandle

namespace Run

variable {α β : Type}

/-- From a sound machine that has given out the handles below a bound, a computation leads to a
sound machine on which no handle was taken back. What is good of its result may depend on the next
free handle. -/
def Keeps (floor : Nat) (run : Run α) (good : Nat → α → Prop) : Prop :=
  ∀ bound, floor ≤ bound →
    Triple (fun machine => machine.IsSound ∧ machine.nextHandle = bound) run
      (fun result machine =>
        machine.IsSound ∧ bound ≤ machine.nextHandle ∧ good machine.nextHandle result)
      fun _ machine => machine.IsSound ∧ bound ≤ machine.nextHandle

variable {floor floor' : Nat} {good : Nat → α → Prop} {run : Run α}

/-- What is kept from a bound on is kept from every greater one on. -/
theorem Keeps.mono (h : Keeps floor run good) (hle : floor ≤ floor') : Keeps floor' run good :=
  fun bound hbound => h bound (Nat.le_trans hle hbound)

/-- A computation that only answers keeps machines sound, if its answer is good. -/
theorem keeps_pure {result : α} (h : ∀ bound, floor ≤ bound → good bound result) :
    Keeps floor (pure result) good :=
  fun bound hbound => triple_pure fun _ hbefore =>
    ⟨hbefore.1, Nat.le_of_eq hbefore.2.symm, hbefore.2 ▸ h bound hbound⟩

/-- A computation that stops keeps machines sound. -/
theorem keeps_throw (halt : Halt) : Keeps floor (throw halt) good :=
  fun _ _ => triple_throw fun _ hbefore => ⟨hbefore.1, Nat.le_of_eq hbefore.2.symm⟩

/-- One computation behind another, which starts where the first one has led. -/
theorem Keeps.bind {next : α → Run β} {last : Nat → β → Prop} (hrun : Keeps floor run good)
    (hnext : ∀ result bound, floor ≤ bound → good bound result → Keeps bound (next result) last) :
    Keeps floor (run >>= next) last := by
  intro bound hbound
  refine (hrun bound hbound).bind fun result => ?_
  -- the second computation is taken from the handle that the first has actually come to
  intro machine ⟨hsound, hle, hgood⟩
  have hlast := hnext result machine.nextHandle (Nat.le_trans hbound hle) hgood machine.nextHandle
    (Nat.le_refl _) machine ⟨hsound, rfl⟩
  cases hfound : next result machine with
  | ok result' machine' =>
    rw [hfound] at hlast
    exact ⟨hlast.1, Nat.le_trans hle hlast.2.1, hlast.2.2⟩
  | error halt machine' =>
    rw [hfound] at hlast
    exact ⟨hlast.1, Nat.le_trans hle hlast.2⟩

/-- How a stop is reported does not matter to the soundness of machines. -/
theorem Keeps.adaptExcept (h : Keeps floor run good) (report : Halt → Halt) :
    Keeps floor (EStateM.adaptExcept report run) good :=
  fun bound hbound => Triple.adaptExcept (h bound hbound)

/-- A computation one level deeper keeps machines sound. -/
theorem Keeps.nested (h : Keeps floor run good) : Keeps floor (nested run) good :=
  fun bound hbound =>
    (h bound hbound).nested (fun _ _ => id) (fun _ _ _ => id) fun _ _ _ => id

/-- An answer that is known, or a cause, keeps machines sound. -/
theorem keeps_ofExcept (answer : Except Cause α) :
    Keeps floor (ofExcept answer) fun _ _ => True := by
  cases answer with
  | ok result => exact keeps_pure fun _ _ => trivial
  | error cause => exact keeps_throw _

/-- To look at a machine keeps it sound. -/
theorem keeps_get : Keeps floor get fun _ _ => True :=
  fun _ _ => triple_get fun _ hbefore => ⟨hbefore.1, Nat.le_of_eq hbefore.2.symm, trivial⟩

/-- To note an event keeps machines sound. -/
theorem keeps_record (event : Event) : Keeps floor (record event) fun _ _ => True :=
  fun _ _ => triple_modify fun _ hbefore =>
    ⟨hbefore.1, Nat.le_of_eq hbefore.2.symm, trivial⟩

/-- To settle what is yielded keeps machines sound, and a new string is below the next free
handle. -/
theorem keeps_settle (yield : Yield) :
    Keeps floor (settle yield) fun bound value => value.IsBelow bound := by
  intro bound _ machine ⟨hsound, hnext⟩
  have hle : machine.nextHandle ≤ machine.nextHandle + 1 := Nat.le_succ _
  exact ⟨Bindings.AreBelow.mono hsound hle, hnext ▸ hle, yield.isBelow_toValue machine.nextHandle⟩

/-- To look a name up keeps machines sound, and yields what is below the next free handle. -/
theorem keeps_load (name : String) :
    Keeps floor (load name) fun bound value => value.IsBelow bound := by
  intro bound _ machine ⟨hsound, hnext⟩
  refine ⟨hsound, Nat.le_of_eq hnext.symm, ?_⟩
  cases hvalue : machine.bindings.get? name with
  | none => trivial
  | some value => exact hsound.get? hvalue

/-- To store a value that is known keeps machines sound. -/
theorem keeps_store (name : String) {value : Value} (h : value.IsBelow floor) :
    Keeps floor (store name value) fun bound _ => value.IsBelow bound := by
  intro bound hbound machine ⟨hsound, hnext⟩
  have hvalue : value.IsBelow machine.nextHandle := hnext ▸ h.mono hbound
  exact ⟨hsound.insert hvalue name, Nat.le_of_eq hnext.symm, hvalue⟩

end Run

open Run

/-! ## What runs keep -/

namespace Expr

variable {floor : Nat}

/-- An operator keeps machines sound if its operands do, and yields what is below the next free
handle. -/
theorem keeps_applied {op : Operator} {left right : Run Value} {good good' : Nat → Value → Prop}
    (hleft : Keeps floor left good) (hright : Keeps floor right good') :
    Keeps floor (applied op left right) fun bound value => value.IsBelow bound := by
  refine hleft.bind fun leftValue bound hbound _ => ?_
  refine (hright.mono hbound).bind fun rightValue bound' _ _ => ?_
  exact (keeps_ofExcept _).bind fun yield _ _ _ => keeps_settle yield

/-- An assignment keeps machines sound if its right side does, and yields what its right side
yields. -/
theorem keeps_assigned {op : Operator} {right : Run Value} (spelling : String)
    (hright : Keeps floor right fun bound value => value.IsBelow bound) :
    Keeps floor (assigned op spelling right) fun bound value => value.IsBelow bound := by
  unfold assigned
  split
  · exact hright
  · exact keeps_applied (keeps_load spelling) hright

/-- Evaluating an expression whose literals have handles that were given out keeps a machine sound,
and the value is no string or one that is known. -/
theorem keeps_eval {expr : Expr} (h : expr.IsSpelled (· < floor)) :
    Keeps floor expr.eval fun bound value => value.IsBelow bound := by
  induction expr using eval_induction with
  | name spelling place =>
    rw [Expr.eval]
    exact (keeps_load spelling).adaptExcept _
  | number value place =>
    rw [Expr.eval]
    exact Keeps.adaptExcept (keeps_pure fun _ _ => trivial) _
  | string value place =>
    rw [Expr.eval]
    -- a literal has a handle from before, and handles are never taken back
    have hvalue (bound : Nat) (hbound : floor ≤ bound) : (Value.string value).IsBelow bound :=
      Nat.lt_of_lt_of_le h hbound
    exact (keeps_pure hvalue).adaptExcept _
  | unary op operand place ih =>
    rw [Expr.eval]
    refine Keeps.adaptExcept ((ih h.2).bind fun value bound _ _ => ?_) _
    exact (keeps_ofExcept _).bind fun yield _ _ _ => keeps_settle yield
  | typeOf operand place ih =>
    rw [Expr.eval]
    exact Keeps.adaptExcept ((ih h).bind fun value _ _ _ => keeps_settle _) _
  | assign spelling place op right place' hop ih =>
    rw [eval_assign hop]
    refine Keeps.adaptExcept ((keeps_assigned spelling (ih h.2.2)).bind ?_) _
    intro value bound _ hvalue
    refine (keeps_store spelling hvalue).bind fun _ bound' _ hstored => ?_
    exact keeps_pure fun _ hbound => hstored.mono hbound
  | noTarget left op right place hop hleft =>
    rw [eval_noTarget hop hleft]
    exact keeps_throw _
  | binary left op right place hop ihleft ihright =>
    rw [eval_binary hop]
    exact Keeps.adaptExcept (keeps_applied (ihleft h.2.1) (ihright h.2.2)) _
  -- no text spells these
  | gap op right place hop => exact h.2.1.elim
  | trailing operand op place => exact h.elim
  | misplaced form rendering place => exact h.elim
  | absent => exact h.elim

/-- An expression whose strings are known keeps machines sound within a limit. -/
theorem keeps_evalWithin {expr : Expr} (h : expr.IsSpelled (· < floor)) (limit : Nat) :
    Keeps floor (expr.evalWithin limit) fun bound value => value.IsBelow bound := by
  unfold evalWithin
  split
  · exact keeps_throw _
  · exact keeps_eval h

end Expr

namespace Stmt

variable {floor : Nat} {settings : Settings}

/-- A result is no string or one that is known. -/
def IsBelowIfAny (bound : Nat) (result : Option Value) : Prop :=
  ∀ value ∈ result, value.IsBelow bound

/-- To trace a statement keeps machines sound. -/
theorem keeps_trace (stmt : Stmt) : Keeps floor (stmt.trace settings) fun _ _ => True := by
  unfold trace
  refine keeps_get.bind fun machine bound _ _ => ?_
  split
  · refine (keeps_record _).bind fun _ _ _ _ => ?_
    split
    · exact keeps_throw _
    · split
      · exact keeps_record _
      · exact keeps_throw _
  · exact keeps_pure fun _ _ => trivial

/-- To count a statement keeps machines sound. -/
theorem keeps_count : Keeps floor count fun _ _ => True :=
  fun _ _ => triple_modify fun _ hbefore => ⟨hbefore.1, Nat.le_of_eq hbefore.2.symm, trivial⟩

/-- A condition whose strings are known keeps machines sound. -/
theorem keeps_holds {condition : Expr} (h : condition.IsSpelled (· < floor)) :
    Keeps floor (holds settings condition) fun _ _ => True := by
  refine (Expr.keeps_evalWithin h settings.limit).bind fun value _ _ _ => ?_
  split
  · exact keeps_pure fun _ _ => trivial
  · exact keeps_throw _

/-- To have no result keeps machines sound. -/
theorem keeps_none : Keeps floor (pure none) IsBelowIfAny :=
  keeps_pure fun _ _ => nofun

mutual

/-- Executing a statement keeps a machine sound. By induction on the tree: each part starts with
the handles that the parts before it have left. -/
theorem keeps_execute : ∀ (stmt : Stmt), stmt.IsSpelled (· < floor) →
    Keeps floor (stmt.execute settings) IsBelowIfAny
  | .expression expr _, h => by
    rw [execute]
    refine (Expr.keeps_evalWithin h settings.limit).bind fun value bound _ hvalue => ?_
    refine keeps_pure fun bound' hbound => ?_
    rintro found hfound
    cases hfound
    exact hvalue.mono hbound
  | .print expr _, h => by
    rw [execute]
    refine (Expr.keeps_evalWithin h settings.limit).bind fun value bound _ _ => ?_
    exact (keeps_record _).bind fun _ _ _ _ => keeps_none
  | .ret expr _, h => by
    rw [execute_ret]
    refine (Expr.keeps_evalWithin h settings.limit).bind fun value bound _ _ => ?_
    exact (keeps_ofExcept _).bind fun _ _ _ _ => keeps_throw _
  | .block body _, h => by
    rw [execute]
    exact (keeps_executeAll body h).nested.bind fun _ _ _ _ => keeps_none
  -- the condition may have made strings, so the body is kept from a later bound on
  | .cond condition body _, ⟨hcondition, hbody⟩ => by
    rw [execute]
    refine (keeps_holds hcondition).bind fun truth bound hbound _ => ?_
    cases truth with
    | true => exact ((keeps_execute body hbody).mono hbound).bind fun _ _ _ _ => keeps_none
    | false => exact keeps_none
  | .condElse condition body other _, ⟨hcondition, hbody, hother⟩ => by
    rw [execute]
    refine (keeps_holds hcondition).bind fun truth bound hbound _ => ?_
    cases truth with
    | true => exact ((keeps_execute body hbody).mono hbound).bind fun _ _ _ _ => keeps_none
    | false => exact ((keeps_execute other hother).mono hbound).bind fun _ _ _ _ => keeps_none
  | .misplaced _, h => h.elim

/-- Statements whose strings are known keep machines sound, and their result is known. -/
theorem keeps_executeAll : ∀ (row : List Stmt), AreSpelled (· < floor) row →
    Keeps floor (executeAll settings row) IsBelowIfAny
  | [], _ => by
    rw [executeAll]
    exact keeps_none
  | first :: rest, ⟨hfirst, hrest⟩ => by
    rw [executeAll]
    refine (keeps_trace first).bind fun _ traced htraced _ => ?_
    refine keeps_count.bind fun _ counted hcounted _ => ?_
    have hfloor : floor ≤ counted := Nat.le_trans htraced hcounted
    refine (((keeps_execute first hfirst).mono hfloor).adaptExcept _).bind ?_
    intro result executed hexecuted hresult
    refine ((keeps_executeAll rest hrest).mono (Nat.le_trans hfloor hexecuted)).bind ?_
    intro last ended hended hlast
    refine keeps_pure fun bound hbound value hvalue => ?_
    -- the result is that of the last statement, or else one that was known before
    rcases Option.or_eq_some_iff.1 hvalue with hvalue | ⟨-, hvalue⟩
    · exact (hlast value hvalue).mono hbound
    · exact (hresult value hvalue).mono (Nat.le_trans hended hbound)

end

end Stmt

/-! ## Sessions -/

/-- A value given from outside gets the handle that is set aside for it. -/
theorem Given.isBelow_toValue {given : Given} {name : String} {handle : Nat} {value : Value}
    (h : given.toValue name handle = .ok value) : value.IsBelow (handle + 1) := by
  cases given with
  | boolean => cases h; trivial
  | integer integer =>
    simp only [Given.toValue] at h
    split at h
    · cases h
    · cases h; trivial
  | number => cases h; trivial
  | string content =>
    cases h
    exact Nat.lt_succ_self handle
  | other => cases h

/-- Values given from outside get one handle after the other. -/
theorem Given.isBelow_convertAll {given : List (String × Given)} {handle : Nat}
    {entries : List (String × Value)} (h : convertAll handle given = .ok entries) :
    ∀ entry ∈ entries, entry.2.IsBelow (handle + given.length) := by
  induction given generalizing handle entries with
  | nil => cases h; nofun
  | cons first rest ih =>
    obtain ⟨name, value⟩ := first
    simp only [convertAll, bind, Except.bind] at h
    split at h
    · cases h
    · rename_i found hfound
      split at h
      · cases h
      · rename_i others hothers
        cases h
        intro entry hmem
        rw [List.length_cons]
        -- each value takes one handle, whether it needs it or not
        rcases List.mem_cons.1 hmem with rfl | hrest
        · exact (isBelow_toValue hfound).mono (by omega)
        · exact (ih hothers entry hrest).mono (by omega)

namespace Bindings

/-- Values below a bound may be bound one after the other. -/
theorem areBelow_foldl {bound : Nat} (entries : List (String × Value)) {bindings : Bindings Value}
    (hbindings : bindings.AreBelow bound) (h : ∀ entry ∈ entries, entry.2.IsBelow bound) :
    (entries.foldl (fun bindings entry => bindings.insert entry.1 entry.2) bindings).AreBelow
      bound := by
  induction entries generalizing bindings with
  | nil => exact hbindings
  | cons first rest ih =>
    have hfirst := h first List.mem_cons_self
    exact ih (hbindings.insert hfirst first.1) fun entry hmem =>
      h entry (List.mem_cons_of_mem _ hmem)

/-- Binding a name makes at most one entry more. -/
theorem length_bindEntry_le {α : Type} (name : String) (value : α) (entries : List (String × α)) :
    (bindEntry name value entries).length ≤ entries.length + 1 := by
  induction entries with
  | nil => exact Nat.le_refl _
  | cons first rest ih =>
    unfold bindEntry
    split
    · exact Nat.le_succ _
    · exact Nat.succ_le_succ ih

/-- To bind entries one after the other adds at most as many as there are. -/
theorem length_foldl_le {α : Type} (entries : List (String × α)) (bindings : Bindings α) :
    (entries.foldl (fun bindings entry => bindings.insert entry.1 entry.2) bindings).entries.length
      ≤ bindings.entries.length + entries.length := by
  induction entries generalizing bindings with
  | nil => exact Nat.le_refl _
  | cons first rest ih =>
    have hinsert := length_bindEntry_le first.1 first.2 bindings.entries
    have hrest := ih (bindings.insert first.1 first.2)
    rw [List.foldl_cons, List.length_cons]
    exact Nat.le_trans hrest (by simp only [insert]; omega)

end Bindings

namespace Session

/-- A session begins sound. -/
theorem isSound_ofGiven {given : List (String × Given)} {session : Session}
    (h : ofGiven given = .ok session) : session.IsSound := by
  simp only [ofGiven, Bindings.ofGiven, bind, Except.bind] at h
  split at h
  · cases h
  · rename_i bindings hbindings
    split at hbindings
    · cases hbindings
    · rename_i entries hentries
      cases hbindings
      cases h
      -- of two values for one name only one is converted, so no more handles are used than given
      have hlength := Bindings.length_foldl_le given .empty
      apply Bindings.areBelow_foldl _ (Bindings.areBelow_empty _)
      intro entry hmem
      refine (Given.isBelow_convertAll hentries entry hmem).mono ?_
      simpa [Bindings.ofList, Bindings.empty] using hlength

/-- Binding a name from outside keeps a session sound. -/
theorem IsSound.define {session : Session} (h : session.IsSound) (name : String) (given : Given) :
    (session.define name given).session.IsSound := by
  unfold Session.define
  split
  · rename_i value hvalue
    exact (Bindings.AreBelow.mono h (Nat.le_succ _)).insert (Given.isBelow_toValue hvalue) name
  · exact h

/-- Reading a text keeps a session sound. -/
theorem IsSound.afterReading {session : Session} (h : session.IsSound) (source : String) :
    (session.afterReading source).IsSound :=
  Bindings.AreBelow.mono h (Nat.le_add_right _ _)

section Run

variable {session : Session} {settings : Settings} {filename : Option String} {source : String}

/-- A text that is a program is run behind the handles set aside for its literals. -/
theorem run_of_ofSource {program : List Stmt}
    (h : Program.ofSource settings.limit filename session.nextHandle source = .ok program) :
    session.run settings filename source =
      (session.afterReading source).execute settings program := by
  rw [run, parse, h]

/-- What a session keeps, tells and counts is what the machine has come to. -/
theorem execute_final (session : Session) (settings : Settings) (program : List Stmt) :
    let reply := session.execute settings program
    let machine := (Stmt.executeAll settings program).final session.machine
    reply.session = ⟨machine.bindings, machine.nextHandle⟩ ∧ reply.journal = machine.journal ∧
      reply.steps = machine.counted := by
  unfold Session.execute Run.final
  cases Stmt.executeAll settings program session.machine with
  | ok result machine => exact ⟨rfl, rfl, rfl⟩
  | error halt machine => exact ⟨rfl, rfl, rfl⟩

/-- A text that is no program is not run. -/
theorem run_of_ofSource_error {rejection : Rejection}
    (h : Program.ofSource settings.limit filename session.nextHandle source = .error rejection) :
    session.run settings filename source =
      { outcome := .error (.rejected rejection), session := session.afterReading source } := by
  rw [run, parse, h]

/-- The literals of a program have handles that were given out when its text was read. -/
theorem spelled_of_ofSource {program : List Stmt}
    (h : Program.ofSource settings.limit filename session.nextHandle source = .ok program) :
    Stmt.AreSpelled (· < (session.afterReading source).nextHandle) program :=
  Program.areSpelled_of_ofSource h fun _ _ hhandle => hhandle

/-- Running a program keeps a session sound and takes no handle back, and the result is no string or
one that is known. -/
theorem IsSound.execute (h : session.IsSound) {program : List Stmt}
    (hspelled : Stmt.AreSpelled (· < session.nextHandle) program) :
    let reply := session.execute settings program
    reply.session.IsSound ∧ session.nextHandle ≤ reply.session.nextHandle ∧
      ∀ result, reply.outcome = .ok result → Stmt.IsBelowIfAny reply.session.nextHandle result := by
  have hrow : Keeps session.nextHandle (Stmt.executeAll settings program) Stmt.IsBelowIfAny :=
    Stmt.keeps_executeAll program hspelled
  have hkeeps := hrow _ (Nat.le_refl _) session.machine ⟨h, rfl⟩
  unfold Session.execute
  -- the machine is sound behind a stop too, only without a result to speak of
  cases hrun : Stmt.executeAll settings program session.machine with
  | ok result machine =>
    rw [hrun] at hkeeps
    refine ⟨hkeeps.1, hkeeps.2.1, ?_⟩
    rintro result' hresult
    cases hresult
    exact hkeeps.2.2
  | error halt machine =>
    rw [hrun] at hkeeps
    exact ⟨hkeeps.1, hkeeps.2, nofun⟩

/-- Running a text keeps a session sound, also if the text is no program or stops early. -/
theorem IsSound.run (h : session.IsSound) : (session.run settings filename source).session.IsSound := by
  cases hread : Program.ofSource settings.limit filename session.nextHandle source with
  | error rejection =>
    rw [run_of_ofSource_error hread]
    exact h.afterReading source
  | ok program =>
    rw [run_of_ofSource hread]
    exact ((h.afterReading source).execute (spelled_of_ofSource hread)).1

end Run

end Session

end Scriptlet
