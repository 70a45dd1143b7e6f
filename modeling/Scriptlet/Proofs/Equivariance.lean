import Scriptlet.Proofs.Relocation
import Scriptlet.Proofs.Simulation

/-! # Runs of relocated programs

Two runs are compared side by side, on machines that hold the same up to a move: one machine may
have a past that the other lacks, and its strings may have other handles. On such machines a program
and its relocation do the same, event by event, and they end in the same way. -/

namespace Scriptlet

/-- A move keeps handles apart, and from a handle on it counts on without gaps. -/
structure Relocation.CountsOn (move : Relocation) (floor : Nat) : Prop where
  faithful : move.IsFaithful
  succ : ∀ handle, floor ≤ handle → move.rename (handle + 1) = move.rename handle + 1

/-- A second machine holds what the first one holds, moved; before that, it had started some
statements and had a past. The handles of the first machine have come up to `floor`. -/
structure Moved (move : Relocation) (floor started : Nat) (past : List Event)
    (machine machine' : Machine) : Prop where
  bindings : machine'.bindings = machine.bindings.mapValues (Value.relocate move)
  nextHandle : machine'.nextHandle = move.rename machine.nextHandle
  floor_le : floor ≤ machine.nextHandle
  steps : machine'.steps = started + machine.steps
  counted : machine'.counted = started + machine.counted
  depth : machine'.depth = machine.depth
  journal : machine'.journal = past ++ machine.journal.map (Event.renumber started)

/-- The second bindings are the first ones, moved. -/
def Bindings.AreMoved (move : Relocation) (bindings bindings' : Bindings Value) : Prop :=
  bindings' = bindings.mapValues (Value.relocate move)

/-- From the handle on, the move adds the same to all handles. -/
theorem Relocation.CountsOn.rename_add {move : Relocation} {floor : Nat} (h : move.CountsOn floor)
    (made : Nat) : move.rename floor + made = move.rename (floor + made) := by
  induction made with
  | zero => rfl
  | succ made ih =>
    rw [← Nat.add_assoc, ← Nat.add_assoc, ih, h.succ _ (Nat.le_add_right _ _)]

section Moved

variable {move : Relocation} {floor started : Nat} {past : List Event} {machine machine' : Machine}
  (hcounts : move.CountsOn floor)
include hcounts

/-- A machine that holds what another holds, moved, keeps abreast of it. -/
theorem Moved.abreast (h : Moved move floor started past machine machine') :
    Abreast (Bindings.AreMoved move) floor (move.rename floor) started past machine machine' where
  bindings := h.bindings
  handles := by
    have hmade : floor + (machine.nextHandle - floor) = machine.nextHandle :=
      Nat.add_sub_of_le h.floor_le
    exact ⟨machine.nextHandle - floor, hmade.symm, by rw [h.nextHandle, hcounts.rename_add, hmade]⟩
  steps := h.steps
  counted := h.counted
  depth := h.depth
  journal := h.journal

/-- A machine that keeps abreast of another, with bindings that are moved, holds what it holds. -/
theorem Abreast.moved
    (h : Abreast (Bindings.AreMoved move) floor (move.rename floor) started past machine machine') :
    Moved move floor started past machine machine' := by
  obtain ⟨made, hhandle, hhandle'⟩ := h.handles
  exact ⟨h.bindings, by rw [hhandle, hhandle', hcounts.rename_add],
    by rw [hhandle]; exact Nat.le_add_right _ _, h.steps, h.counted, h.depth, h.journal⟩

end Moved

namespace Run

variable {α β : Type} {move : Relocation} {floor started : Nat} {past : List Event}

/-- Two computations do the same up to a move. -/
def Matches (move : Relocation) (floor started : Nat) (past : List Event) (change : α → β)
    (run : Run α) (run' : Run β) : Prop :=
  Couple (Moved move floor started past) run run'
    (fun result result' machine machine' =>
      result' = change result ∧ Moved move floor started past machine machine')
    fun halt halt' machine machine' =>
      halt' = halt.relocate move ∧ Moved move floor started past machine machine'

/-- Where the first computation returns, so does the second. -/
theorem Matches.of_ok {change : α → β} {run : Run α} {run' : Run β}
    (h : Matches move floor started past change run run') {machine machine' after : Machine}
    (hmoved : Moved move floor started past machine machine') {result : α}
    (hrun : run machine = .ok result after) :
    ∃ after', run' machine' = .ok (change result) after' ∧
      Moved move floor started past after after' := by
  have hmatches := h machine machine' hmoved
  cases hrun' : run' machine' with
  | ok result' after' =>
    rw [hrun, hrun'] at hmatches
    exact ⟨after', by rw [hmatches.1], hmatches.2⟩
  | error halt' after' =>
    rw [hrun, hrun'] at hmatches
    exact hmatches.elim

/-- Where the first computation stops, so does the second. -/
theorem Matches.of_error {change : α → β} {run : Run α} {run' : Run β}
    (h : Matches move floor started past change run run') {machine machine' after : Machine}
    (hmoved : Moved move floor started past machine machine') {halt : Halt}
    (hrun : run machine = .error halt after) :
    ∃ after', run' machine' = .error (halt.relocate move) after' ∧
      Moved move floor started past after after' := by
  have hmatches := h machine machine' hmoved
  cases hrun' : run' machine' with
  | ok result' after' =>
    rw [hrun, hrun'] at hmatches
    exact hmatches.elim
  | error halt' after' =>
    rw [hrun, hrun'] at hmatches
    exact ⟨after', by rw [hmatches.1], hmatches.2⟩

/-- Computations that end alike on machines abreast of each other do the same up to the move. -/
theorem Matches.of_tracks {change : α → β} {results : α → β → Prop} {run : Run α} {run' : Run β}
    (hcounts : move.CountsOn floor)
    (hresults : ∀ result result', results result result' → result' = change result)
    (h : Tracks move.likeness
      (Abreast (Bindings.AreMoved move) floor (move.rename floor) started past) results run run') :
    Matches move floor started past change run run' := by
  intro machine machine' hmoved
  have htracks := h machine machine' (hmoved.abreast hcounts)
  -- both return or both stop; the mixed cases are excluded by the relation
  cases hrun : run machine <;> cases hrun' : run' machine' <;> rw [hrun, hrun'] at htracks
  · exact ⟨hresults _ _ htracks.1, htracks.2.moved hcounts⟩
  · exact htracks.elim
  · exact htracks.elim
  · exact ⟨htracks.1.eq_relocate, htracks.2.moved hcounts⟩

end Run

namespace Bindings

variable {move : Relocation}

/-- Bindings and their relocation serve programs that are alike up to the move. -/
theorem serve_areMoved : Bindings.Serve move.likeness (AreMoved move) where
  read := by
    rintro bindings _ name rfl -
    rw [Value.like_iff, read, read, get?_mapValues]
    cases bindings.get? name <;> rfl
  insert := by
    rintro bindings _ name value value' rfl - hvalue
    rw [Value.like_iff.1 hvalue, AreMoved, insert_mapValues]

/-- Trace lines show no handles. -/
theorem shown_mapValues (bindings : Bindings Value) :
    (bindings.mapValues (Value.relocate move)).shown = bindings.shown := by
  simp only [shown, mapValues, List.map_map, Function.comp_def, (Value.like_iff.2 rfl).shown_eq]

end Bindings

namespace Stmt

variable {settings : Settings} {move : Relocation} {floor started : Nat} {past : List Event}

/-- Executing relocated statements gives the relocated result. -/
theorem matches_executeAll (h : move.CountsOn floor) (row : List Stmt) :
    Run.Matches move floor started past (Option.map (Value.relocate move)) (executeAll settings row)
      (executeAll settings (relocateAll move row)) := by
  have hsimulation : Simulation move.likeness
      (Abreast (Bindings.AreMoved move) floor (move.rename floor) started past) settings settings := by
    refine .abreast h.faithful.isPairing h.rename_add Bindings.serve_areMoved (.inr ?_)
    rintro bindings _ rfl
    exact bindings.shown_mapValues
  exact .of_tracks h (fun _ _ => eq_relocate_of_rel) (hsimulation.executeAll (likeAll_relocateAll row))

/-- Statements in two rows are executed one row after the other. -/
theorem executeAll_append (row row' : List Stmt) :
    executeAll settings (row ++ row') = do
      let result ← executeAll settings row
      let last ← executeAll settings row'
      return last.or result := by
  induction row with
  | nil => simp [executeAll]
  | cons first rest ih =>
    rw [List.cons_append, executeAll, executeAll, ih]
    simp only [bind_assoc, pure_bind, Option.or_assoc]

end Stmt

end Scriptlet
