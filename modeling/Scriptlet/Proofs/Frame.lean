import Scriptlet.Proofs.Handles

/-! # What a run leaves unchanged

A run binds names, whether or not it comes to its end, but only those that some assignment in the
program assigns to. The names that were bound before keep their places; new ones come behind them. A
text that is no program changes nothing at all.

* `Bindings.Frame`: what bindings after a run have in common with those before.
* `Run.closed_keepsFrame`: every step of a run keeps to its frame.
* `run_keeps_frame`: so does every run, however it ends. -/

namespace Scriptlet

namespace Bindings

/-- Bindings that come from others by binding names among some targets, in any order. -/
structure Frame (targets : List String) (bindings bindings' : Bindings Value) : Prop where
  /-- The names that were bound are still bound, in their order, before all new ones. -/
  names : bindings.names <+: bindings'.names
  /-- A name that was added is a target. -/
  added : ∀ name ∈ bindings'.names, name ∉ bindings.names → name ∈ targets
  /-- A name with another value, or with a string of another handle, is a target. -/
  changed : ∀ name, bindings'.get? name ≠ bindings.get? name → name ∈ targets

variable {targets : List String} {bindings bindings' : Bindings Value}

/-- Bindings come from themselves without binding anything. -/
theorem frame_self (targets : List String) (bindings : Bindings Value) :
    Frame targets bindings bindings where
  names := List.prefix_rfl
  added _ hname hnew := absurd hname hnew
  changed _ hname := absurd rfl hname

/-- Binding a target stays within a frame. -/
theorem Frame.insert (h : Frame targets bindings bindings') {name : String} (hname : name ∈ targets)
    (value : Value) : Frame targets bindings (bindings'.insert name value) where
  names := by
    rw [names_insert]
    split
    · exact h.names
    · exact h.names.trans (List.prefix_append _ _)
  added sought hsought hnew := by
    rw [names_insert] at hsought
    split at hsought
    · exact h.added sought hsought hnew
    -- the name was added before, or it is the one that is bound now
    · rcases List.mem_append.1 hsought with hsought | hsought
      · exact h.added sought hsought hnew
      · rw [List.mem_singleton.1 hsought]
        exact hname
  changed sought hsought := by
    rw [get?_insert] at hsought
    by_cases hsame : name = sought
    · rw [← hsame]
      exact hname
    · rw [if_neg hsame] at hsought
      exact h.changed sought hsought

end Bindings

namespace Run

/-- A computation stays within the frame of some targets, however it ends. -/
def KeepsFrame (targets : List String) {α : Type} (run : Run α) : Prop :=
  ∀ bindings, Triple (fun machine => Bindings.Frame targets bindings machine.bindings) run
    (fun _ machine => Bindings.Frame targets bindings machine.bindings)
    fun _ machine => Bindings.Frame targets bindings machine.bindings

/-- Only binding a name touches the bindings. -/
theorem closed_keepsFrame (targets : List String) : Closed (· ∈ targets) (KeepsFrame targets) where
  pure _ _ := triple_pure fun _ => id
  throw _ _ := triple_throw fun _ => id
  bind hrun hnext bindings := (hrun bindings).bind fun result => hnext result bindings
  adaptExcept _ h bindings := Triple.adaptExcept (h bindings)
  nested h bindings := (h bindings).nested (fun _ _ => id) (fun _ _ _ => id) fun _ _ _ => id
  get _ := triple_get fun _ => id
  load _ _ _ := id
  record _ _ := triple_modify fun _ => id
  settle _ _ _ := id
  store _ value hname _ _ hframe := hframe.insert hname value
  count _ := triple_modify fun _ => id

end Run

/-- **A run changes only what its program assigns to.** Whatever machine a program is run on and
however the run ends, the names that were bound stay bound, in their order and before all new ones,
and every name that was added, or has another value or a string of another handle, is assigned to
somewhere in the program. For a text, if it is no program, nothing is bound, printed, traced or
counted. -/
theorem run_keeps_frame (settings : Settings) :
    (∀ (program : List Stmt) (machine : Machine),
      Bindings.Frame (Stmt.targetsAll program) machine.bindings
        ((Stmt.executeAll settings program).final machine).bindings) ∧
    ∀ (session : Session) (filename : Option String) (source : String),
      let reply := session.run settings filename source
      match Program.ofSource settings.limit filename session.nextHandle source with
      | .ok program =>
        Bindings.Frame (Stmt.targetsAll program) session.bindings reply.session.bindings
      | .error rejection =>
        reply.outcome = .error (.rejected rejection) ∧
          reply.session.bindings = session.bindings ∧ reply.output = "" ∧ reply.trace = "" ∧
          reply.steps = 0 := by
  have hframe (program : List Stmt) (machine : Machine) :
      Bindings.Frame (Stmt.targetsAll program) machine.bindings
        ((Stmt.executeAll settings program).final machine).bindings :=
    ((Run.closed_keepsFrame _).executeAll settings program (fun _ => id) machine.bindings).final
      (Bindings.frame_self _ _)
  -- a session runs what it reads, and keeps its bindings where nothing can be read
  refine ⟨hframe, fun session filename source => ?_⟩
  intro reply
  cases hread : Program.ofSource settings.limit filename session.nextHandle source with
  | ok program =>
    have hreply : reply = (session.afterReading source).execute settings program :=
      Session.run_of_ofSource hread
    dsimp only
    rw [hreply, (Session.execute_final _ settings program).1]
    exact hframe program (session.afterReading source).machine
  | error rejection =>
    have hreply : reply =
        { outcome := .error (.rejected rejection), session := session.afterReading source } :=
      Session.run_of_ofSource_error hread
    rw [hreply]
    exact ⟨rfl, rfl, rfl, rfl, rfl⟩

end Scriptlet
