import Mathlib
import Scriptlet.Proofs.Equivariance
import Scriptlet.Proofs.Handles
import Scriptlet.Proofs.Seam

/-! # Running texts one after the other

Running two texts in one session, one after the other, comes to the same as running them put
together, if the first ends with a newline and outside of strings. In the joined text the literals
of both parts come before all strings that are made by running, so handles differ: the strings made
by the first part stand behind the literals of the second, and not in front of them. -/

namespace Scriptlet

/-! ## Moves that agree -/

/-- The move that leaves everything where it is. -/
def Relocation.stay : Relocation :=
  ⟨id, 0⟩

section Agree

variable {move move' : Relocation}

/-- Values stay as they are under the move that leaves everything. -/
theorem Value.relocate_stay (value : Value) : value.relocate .stay = value := by
  cases value <;> rfl

/-- Bindings stay as they are under the move that leaves everything. -/
theorem Bindings.relocate_stay (bindings : Bindings Value) :
    bindings.mapValues (Value.relocate .stay) = bindings := by
  have hentry : (fun entry : String × Value => (entry.1, entry.2.relocate .stay)) = id := by
    funext entry
    rw [Value.relocate_stay]
    rfl
  simp only [mapValues, hentry, List.map_id]

/-- Places stay as they are under the move that leaves everything. -/
theorem place_relocate_stay (place : Option Position) :
    place.map (Position.relocate .stay) = place := by
  cases place with
  | none => rfl
  | some position => simp [Position.relocate, Relocation.stay]

/-- Expressions stay as they are under the move that leaves everything. -/
theorem Expr.relocate_stay (expr : Expr) : expr.relocate .stay = expr := by
  induction expr with
  | unary op operand place ih => simp only [relocate, ih, place_relocate_stay]
  | binary left op right place ihleft ihright =>
    simp only [relocate, ihleft, ihright, place_relocate_stay]
  | trailing operand op place ih => simp only [relocate, ih, place_relocate_stay]
  | typeOf operand place ih => simp only [relocate, ih, place_relocate_stay]
  | string value place => simp only [relocate, place_relocate_stay]; rfl
  | _ => simp only [relocate, place_relocate_stay]

mutual

/-- Statements stay as they are under the move that leaves everything. -/
theorem Stmt.relocate_stay : ∀ (stmt : Stmt), stmt.relocate .stay = stmt
  | .expression _ _ | .print _ _ | .ret _ _ | .misplaced _ => by
    simp only [Stmt.relocate, Expr.relocate_stay, place_relocate_stay]
  | .block body _ => by
    simp only [Stmt.relocate, Stmt.relocateAll_stay body, place_relocate_stay]
  | .cond _ body _ => by
    simp only [Stmt.relocate, Expr.relocate_stay, Stmt.relocate_stay body, place_relocate_stay]
  | .condElse _ body other _ => by
    simp only [Stmt.relocate, Expr.relocate_stay, Stmt.relocate_stay body, Stmt.relocate_stay other,
      place_relocate_stay]

/-- Rows of statements stay as they are under the move that leaves everything. -/
theorem Stmt.relocateAll_stay : ∀ (row : List Stmt), Stmt.relocateAll .stay row = row
  | [] => rfl
  | first :: rest => by
    simp only [Stmt.relocateAll, Stmt.relocate_stay first, Stmt.relocateAll_stay rest]

end

/-- Moves that agree on the handle of a string agree on the value. -/
theorem Value.relocate_congr {bound : Nat} {value : Value} (h : value.IsBelow bound)
    (hrename : ∀ handle < bound, move.rename handle = move'.rename handle) :
    value.relocate move = value.relocate move' := by
  cases value with
  | number => rfl
  | boolean => rfl
  | string value => simp only [relocate, StringValue.relocate, hrename value.handle h]

/-- Moves that agree below a bound move the bindings below it alike. -/
theorem Bindings.relocate_congr {bound : Nat} {bindings : Bindings Value}
    (h : bindings.AreBelow bound)
    (hrename : ∀ handle < bound, move.rename handle = move'.rename handle) :
    bindings.mapValues (Value.relocate move) = bindings.mapValues (Value.relocate move') := by
  simp only [mapValues, Bindings.mk.injEq]
  apply List.map_congr_left
  intro entry hmem
  rw [Value.relocate_congr (h entry hmem) hrename]

/-- Moves that agree below a bound move a result below it alike. -/
theorem Stmt.IsBelowIfAny.relocate_congr {bound : Nat} {result : Option Value}
    (h : Stmt.IsBelowIfAny bound result)
    (hrename : ∀ handle < bound, move.rename handle = move'.rename handle) :
    result.map (Value.relocate move) = result.map (Value.relocate move') := by
  cases result with
  | none => rfl
  | some value => rw [Option.map_some, Option.map_some, Value.relocate_congr (h value rfl) hrename]

/-- Moves that agree on the literals of a tree agree on the tree. -/
theorem Expr.relocate_congr {literal : Nat → Prop} {expr : Expr} (h : expr.IsSpelled literal)
    (hlines : move.lines = move'.lines)
    (hrename : ∀ handle, literal handle → move.rename handle = move'.rename handle) :
    expr.relocate move = expr.relocate move' := by
  have hplace : Position.relocate move = Position.relocate move' := by
    funext position
    simp only [Position.relocate, hlines]
  -- only strings look at handles, and every handle in the tree is a literal
  induction expr with
  | name => simp only [relocate, hplace]
  | number => simp only [relocate, hplace]
  | string value place => simp only [relocate, hplace, StringValue.relocate, hrename value.handle h]
  | unary op operand place ih => simp only [relocate, hplace, ih h.2]
  | binary left op right place ihleft ihright =>
    simp only [relocate, hplace, ihleft h.2.1, ihright h.2.2]
  | typeOf operand place ih => simp only [relocate, hplace, ih h]
  | trailing => exact h.elim
  | misplaced => exact h.elim
  | absent => exact h.elim

mutual

/-- Moves that agree on the handles of its strings move a statement alike. -/
theorem Stmt.relocate_congr {literal : Nat → Prop} (hlines : move.lines = move'.lines)
    (hrename : ∀ handle, literal handle → move.rename handle = move'.rename handle) :
    ∀ (stmt : Stmt), stmt.IsSpelled literal → stmt.relocate move = stmt.relocate move'
  | .expression _ _, h | .print _ _, h | .ret _ _, h => by
    simp only [Stmt.relocate, Expr.relocate_congr h hlines hrename, Position.relocate, hlines]
  | .block body _, h => by
    simp only [Stmt.relocate, Stmt.relocateAll_congr hlines hrename body h, Position.relocate,
      hlines]
  | .cond _ body _, ⟨hcondition, hbody⟩ => by
    simp only [Stmt.relocate, Expr.relocate_congr hcondition hlines hrename,
      Stmt.relocate_congr hlines hrename body hbody, Position.relocate, hlines]
  | .condElse _ body other _, ⟨hcondition, hbody, hother⟩ => by
    simp only [Stmt.relocate, Expr.relocate_congr hcondition hlines hrename,
      Stmt.relocate_congr hlines hrename body hbody, Stmt.relocate_congr hlines hrename other hother,
      Position.relocate, hlines]
  | .misplaced _, h => h.elim

/-- Moves that agree on the handles of their strings move a row of statements alike. -/
theorem Stmt.relocateAll_congr {literal : Nat → Prop} (hlines : move.lines = move'.lines)
    (hrename : ∀ handle, literal handle → move.rename handle = move'.rename handle) :
    ∀ (row : List Stmt), Stmt.AreSpelled literal row →
      Stmt.relocateAll move row = Stmt.relocateAll move' row
  | [], _ => rfl
  | first :: rest, ⟨hfirst, hrest⟩ => by
    simp only [Stmt.relocateAll, Stmt.relocate_congr hlines hrename first hfirst,
      Stmt.relocateAll_congr hlines hrename rest hrest]

end

end Agree

/-! ## How handles differ -/

namespace Relocation

/-- The move of a text in front of another one: strings made by running it come behind the `added`
literals of the other text, so they move on. -/
def pushed (bound added : Nat) : Relocation :=
  ⟨fun handle => if handle < bound then handle else handle + added, 0⟩

/-- The move of a text behind another one, which has made the strings from `bound` up to `reached`:
these change places with the `added` literals of the text. -/
def swapped (bound reached added lines : Nat) : Relocation :=
  ⟨fun handle =>
    if handle < bound then handle
    else if handle < reached then handle + added
    else if handle < reached + added then handle - (reached - bound)
    else handle, lines⟩

/-- A handle below the bound is not pushed. -/
theorem rename_pushed_of_lt {bound handle : Nat} (h : handle < bound) (added : Nat) :
    (pushed bound added).rename handle = handle :=
  if_pos h

/-- A handle from the bound on is pushed by the literals that were added. -/
theorem rename_pushed_of_le {bound handle : Nat} (h : bound ≤ handle) (added : Nat) :
    (pushed bound added).rename handle = handle + added :=
  if_neg (Nat.not_lt.2 h)

/-- A handle below the bound does not change places. -/
theorem rename_swapped_of_lt {bound handle : Nat} (h : handle < bound) (reached added lines : Nat) :
    (swapped bound reached added lines).rename handle = handle :=
  if_pos h

/-- A push counts on from its bound. -/
theorem countsOn_pushed (bound added : Nat) : (pushed bound added).CountsOn bound where
  faithful handle handle' h := by
    simp only [pushed] at h
    split at h <;> split at h <;> omega
  succ handle hbound := by
    rw [rename_pushed_of_le hbound, rename_pushed_of_le (Nat.le_succ_of_le hbound)]
    omega

/-- A change of places counts on behind both texts. -/
theorem countsOn_swapped {bound reached : Nat} (hle : bound ≤ reached) (added lines : Nat) :
    (swapped bound reached added lines).CountsOn (reached + added) where
  faithful handle handle' h := by
    simp only [swapped] at h
    grind
  succ handle hbound := by
    simp only [swapped]
    grind

/-- Both moves agree on the strings made before the seam. -/
theorem rename_pushed_eq_swapped {reached handle : Nat} (h : handle < reached)
    (bound added lines : Nat) :
    (pushed bound added).rename handle = (swapped bound reached added lines).rename handle := by
  simp only [pushed, swapped, if_pos h]

end Relocation

/-! ## Replies -/

/-- An outcome after a move. -/
def relocateOutcome (move : Relocation) : Except Failure (Option Value) → Except Failure (Option Value)
  | .ok result => .ok (result.map (Value.relocate move))
  | .error (.halted halt) => .error (.halted (halt.relocate move))
  | .error failure => .error failure

namespace Reply

/-- A reply after a move: what happened stays. -/
def relocate (move : Relocation) (reply : Reply (Option Value)) : Reply (Option Value) where
  outcome := relocateOutcome move reply.outcome
  session := ⟨reply.session.bindings.mapValues (Value.relocate move),
    move.rename reply.session.nextHandle⟩
  journal := reply.journal
  steps := reply.steps

/-- The reply to two requests: what the second one came to, in one count and one journal with the
first. Where the second has no result, that of the first remains. -/
def followedBy (first : Reply (Option Value)) (value : Option Value)
    (second : Reply (Option Value)) : Reply (Option Value) where
  outcome := second.outcome.map (·.or value)
  session := second.session
  journal := first.journal ++ second.journal.map (Event.renumber first.steps)
  steps := first.steps + second.steps

/-- What two requests print is printed in turn. -/
theorem output_followedBy (first : Reply (Option Value)) (value : Option Value)
    (second : Reply (Option Value)) :
    (first.followedBy value second).output = first.output ++ second.output := by
  simp only [output, followedBy, List.map_append, List.map_map, String.join_append,
    Function.comp_def, Event.outputText_renumber]

/-- A run that stops on a machine that is moved has a reply that is moved. -/
theorem ofRun_error_relocate {move : Relocation} {floor : Nat} {machine machine' : Machine}
    (h : Moved move floor 0 [] machine machine') {halt : Halt} :
    ofRun (.error (halt.relocate move) machine') = (ofRun (.error halt machine)).relocate move := by
  have hrenumber : Event.renumber 0 = id := funext Event.renumber_zero
  simp only [ofRun, relocate, relocateOutcome, h.bindings, h.nextHandle, h.counted, h.journal,
    hrenumber, List.map_id, List.nil_append, Nat.zero_add]

section FollowedBy

variable {move : Relocation} {floor : Nat} {machine machine' : Machine}
  {first : Reply (Option Value)} (h : Moved move floor first.steps first.journal machine machine')
  (value : Option Value)
include h

/-- A run that stops behind another one has the reply of both, moved. -/
theorem ofRun_error_followedBy (halt : Halt) :
    ofRun (.error (halt.relocate move) machine') =
      (first.followedBy value (ofRun (.error halt machine))).relocate move := by
  simp only [ofRun, followedBy, relocate, Except.map, relocateOutcome, h.bindings, h.nextHandle,
    h.counted, h.journal]

/-- A run that returns behind another one has the reply of both, moved. -/
theorem ofRun_ok_followedBy (result : Option Value) :
    ofRun (.ok ((result.map (Value.relocate move)).or (value.map (Value.relocate move))) machine') =
      (first.followedBy value (ofRun (.ok result machine))).relocate move := by
  simp only [ofRun, followedBy, relocate, Except.map, relocateOutcome, h.bindings, h.nextHandle,
    h.counted, h.journal, Option.map_or]

end FollowedBy

end Reply

/-! ## The two runs -/

namespace Session

variable {session : Session} {settings : Settings} {filename : Option String}
  {source next : String}

/-- Before both runs, handles differ only by those set aside for the second text. -/
theorem moved_start (hsound : session.IsSound) :
    Moved (.pushed (session.afterReading source).nextHandle next.length)
      (session.afterReading source).nextHandle 0 []
      (session.afterReading source).machine (session.afterReading (source ++ next)).machine where
  bindings := by
    -- the session is sound, so what it has bound lies below the handles of the texts
    have hstay (handle : Nat) (h : handle < session.nextHandle) :
        (Relocation.pushed (session.afterReading source).nextHandle next.length).rename handle =
          Relocation.stay.rename handle :=
      Relocation.rename_pushed_of_lt (Nat.lt_of_lt_of_le h (Nat.le_add_right _ _)) _
    exact ((Bindings.relocate_congr hsound hstay).trans session.bindings.relocate_stay).symm
  nextHandle := by
    have hreached := Relocation.rename_pushed_of_le
      (Nat.le_refl (session.afterReading source).nextHandle) next.length
    simp only [machine, hreached]
    simp only [afterReading, String.length_append, Nat.add_assoc]
  floor_le := Nat.le_refl _
  steps := rfl
  counted := rfl
  depth := rfl
  journal := rfl

/-- Between the runs, the strings made by the first change places with the literals of the second
text. -/
theorem moved_seam {bound : Nat} {machine machine' : Machine}
    (h : Moved (.pushed bound next.length) bound 0 [] machine machine') (hsound : machine.IsSound)
    (hdepth : machine.depth = 0) (hcounted : machine.counted = machine.steps) (lines : Nat) :
    Moved (.swapped bound machine.nextHandle next.length lines) (machine.nextHandle + next.length)
      machine.counted machine.journal
      (Session.afterReading ⟨machine.bindings, machine.nextHandle⟩ next).machine machine' where
  bindings := by
    rw [h.bindings]
    exact Bindings.relocate_congr hsound fun handle hhandle =>
      Relocation.rename_pushed_eq_swapped hhandle bound next.length lines
  nextHandle := by
    rw [h.nextHandle, Relocation.rename_pushed_of_le h.floor_le]
    simp only [Session.machine, afterReading, Relocation.swapped]
    have hle := h.floor_le
    -- what is made from here on lies beyond the strings and the literals that change places
    rw [if_neg (by omega), if_neg (by omega), if_neg (by omega)]
  floor_le := Nat.le_refl _
  steps := by rw [h.steps, Nat.zero_add, ← hcounted]; rfl
  counted := by rw [h.counted, Nat.zero_add]; rfl
  depth := by rw [h.depth, hdepth]; rfl
  journal := by
    have hrenumber : Event.renumber 0 = id := funext Event.renumber_zero
    rw [h.journal, hrenumber, List.map_id, List.nil_append]
    exact (List.append_nil _).symm

/-- The first program is not moved: its literals come before all else. -/
theorem relocateAll_pushed {program : List Stmt}
    (h : Program.ofSource settings.limit filename session.nextHandle source = .ok program)
    (added : Nat) :
    Stmt.relocateAll (.pushed (session.afterReading source).nextHandle added) program = program := by
  have hstay (handle : Nat) (h : handle < (session.afterReading source).nextHandle) :
      (Relocation.pushed (session.afterReading source).nextHandle added).rename handle =
        Relocation.stay.rename handle :=
    Relocation.rename_pushed_of_lt h added
  have hcongr := Stmt.relocateAll_congr (by rfl) hstay program (spelled_of_ofSource h)
  exact hcongr.trans (Stmt.relocateAll_stay program)

/-- The second program is moved as the machine is. -/
theorem relocateAll_swapped {limit bound reached : Nat} {program : List Stmt}
    (hle : bound ≤ reached) (h : Program.ofSource limit filename reached next = .ok program)
    (lines : Nat) :
    Stmt.relocateAll (Program.moveBehind reached bound lines) program =
      Stmt.relocateAll (.swapped bound reached next.length lines) program := by
  have hspelled : Stmt.AreSpelled
      (fun handle => reached ≤ handle ∧ handle < reached + next.length) program :=
    Program.areSpelled_of_ofSource h fun _ hlow hhigh => ⟨hlow, hhigh⟩
  -- the two moves differ, but not on the handles of the literals
  refine Stmt.relocateAll_congr ?_ ?_ program hspelled
  · rfl
  rintro handle ⟨hlow, hhigh⟩
  simp only [Program.moveBehind, Relocation.swapped]
  rw [if_neg (by omega), if_neg (by omega), if_pos hhigh]
  omega

/-- The first program does the same in front of another one. -/
theorem matches_first {program : List Stmt}
    (h : Program.ofSource settings.limit filename session.nextHandle source = .ok program)
    (added started : Nat) (past : List Event) :
    Run.Matches (.pushed (session.afterReading source).nextHandle added)
      (session.afterReading source).nextHandle started past
      (Option.map (Value.relocate (.pushed (session.afterReading source).nextHandle added)))
      (Stmt.executeAll settings program) (Stmt.executeAll settings program) := by
  have hcounts := Relocation.countsOn_pushed (session.afterReading source).nextHandle added
  have hmatches : Run.Matches _ _ started past _ (Stmt.executeAll settings program) _ :=
    Stmt.matches_executeAll hcounts program
  rw [relocateAll_pushed h] at hmatches
  exact hmatches

/-- The second program does the same behind another one. -/
theorem matches_second {bound reached : Nat} (hle : bound ≤ reached) {program : List Stmt}
    (h : Program.ofSource settings.limit filename reached next = .ok program) (lines started : Nat)
    (past : List Event) :
    Run.Matches (.swapped bound reached next.length lines) (reached + next.length) started past
      (Option.map (Value.relocate (.swapped bound reached next.length lines)))
      (Stmt.executeAll settings program)
      (Stmt.executeAll settings
        (Stmt.relocateAll (Program.moveBehind reached bound lines) program)) := by
  rw [relocateAll_swapped hle h]
  exact Stmt.matches_executeAll (Relocation.countsOn_swapped hle next.length lines) program

/-- The joined text is run as the first program and then the second one, relocated. -/
theorem run_append_eq {handle : Nat} {program program' : List Stmt}
    (hread : Program.ofSource settings.limit filename session.nextHandle source = .ok program)
    (hread' : Program.ofSource settings.limit filename handle next = .ok program')
    (hends : Token.EndsLine source.toList)
    (hclosed : (Token.scan source).2.offset = source.length) :
    session.run settings filename (source ++ next) =
      Reply.ofRun ((do
        let result ← Stmt.executeAll settings program
        let last ← Stmt.executeAll settings (Stmt.relocateAll (Program.moveBehind handle
          (session.afterReading source).nextHandle (source.toList.count '\n')) program')
        return last.or result : Run (Option Value))
        (session.afterReading (source ++ next)).machine) := by
  have hjoined := Program.ofSource_append hread hread' hends hclosed
  rw [run_of_ofSource hjoined, Session.execute, Stmt.executeAll_append]
  rfl

/-- What the first program leaves: a sound machine on which no handle was taken back and no block is
open, and a result that is no string or one that is known. -/
theorem executed_first {program : List Stmt} (hsound : session.IsSound)
    (hread : Program.ofSource settings.limit filename session.nextHandle source = .ok program)
    {value : Option Value} {machine : Machine}
    (hrun : Stmt.executeAll settings program (session.afterReading source).machine =
      .ok value machine) :
    machine.IsSound ∧ (session.afterReading source).nextHandle ≤ machine.nextHandle ∧
      Stmt.IsBelowIfAny machine.nextHandle value ∧ machine.depth = 0 ∧
      machine.counted = machine.steps := by
  have hkeeps : Run.Keeps _ (Stmt.executeAll settings program) Stmt.IsBelowIfAny :=
    Stmt.keeps_executeAll program (spelled_of_ofSource hread)
  have hkept := hkeeps _ (Nat.le_refl _) (session.afterReading source).machine
    ⟨hsound.afterReading source, rfl⟩
  have hdepth := Run.closed_keepsDepth.executeAll settings program (fun _ _ => trivial) 0
    (session.afterReading source).machine rfl
  have hcounts := Run.closed_keepsCounts.executeAll settings program (fun _ _ => trivial) 0 0
    (session.afterReading source).machine rfl
  rw [hrun] at hkept hdepth hcounts
  -- both counters began at zero, so they agree behind the run as well
  exact ⟨hkept.1, hkept.2.1, hkept.2.2, hdepth, by omega⟩

/-- If the first text stops early, the joined text stops there too. -/
theorem run_append_of_error {handle : Nat} {program program' : List Stmt}
    (hsound : session.IsSound)
    (hread : Program.ofSource settings.limit filename session.nextHandle source = .ok program)
    (hread' : Program.ofSource settings.limit filename handle next = .ok program')
    (hends : Token.EndsLine source.toList)
    (hclosed : (Token.scan source).2.offset = source.length) {halt : Halt} {machine : Machine}
    (hrun : Stmt.executeAll settings program (session.afterReading source).machine =
      .error halt machine) :
    session.run settings filename (source ++ next) =
      (Reply.ofRun (.error halt machine)).relocate
        (.pushed (session.afterReading source).nextHandle next.length) := by
  obtain ⟨machine', hrun', hmoved⟩ :=
    (matches_first hread next.length 0 []).of_error (moved_start hsound) hrun
  rw [run_append_eq hread hread' hends hclosed, Run.bind_of_error hrun']
  exact Reply.ofRun_error_relocate hmoved

/-- If the first text does not stop early, the joined text goes on with the second one. -/
theorem run_append_of_ok {program program' : List Stmt} (hsound : session.IsSound)
    (hread : Program.ofSource settings.limit filename session.nextHandle source = .ok program)
    {value : Option Value} {machine : Machine}
    (hrun : Stmt.executeAll settings program (session.afterReading source).machine =
      .ok value machine)
    (hread' : Program.ofSource settings.limit filename machine.nextHandle next = .ok program')
    (hends : Token.EndsLine source.toList)
    (hclosed : (Token.scan source).2.offset = source.length) :
    session.run settings filename (source ++ next) =
      ((Reply.ofRun (.ok value machine)).followedBy value
        (Session.run ⟨machine.bindings, machine.nextHandle⟩ settings filename next)).relocate
        (.swapped (session.afterReading source).nextHandle machine.nextHandle next.length
          (source.toList.count '\n')) := by
  obtain ⟨hsound', hle, hvalue, hdepth, hcounted⟩ := executed_first hsound hread hrun
  -- up to the seam the joined run follows the first one, under the first of the two moves
  obtain ⟨machine', hrun', hmoved⟩ :=
    (matches_first hread next.length 0 []).of_ok (moved_start hsound) hrun
  have hagree (handle : Nat) (h : handle < machine.nextHandle) :=
    Relocation.rename_pushed_eq_swapped h (session.afterReading source).nextHandle next.length
      (source.toList.count '\n')
  -- what the first run has left is seen by the second move as by the first
  have hseam := moved_seam hmoved hsound' hdepth hcounted (source.toList.count '\n')
  have hsecond := matches_second hle hread' (source.toList.count '\n') machine.counted machine.journal
  rw [run_append_eq hread hread' hends hclosed, Run.bind_of_ok hrun', run_of_ofSource hread',
    Session.execute]
  cases hlast : Stmt.executeAll settings program'
      (Session.afterReading ⟨machine.bindings, machine.nextHandle⟩ next).machine with
  | error halt last =>
    obtain ⟨last', hlast', hmoved'⟩ := hsecond.of_error hseam hlast
    rw [Run.bind_of_error hlast']
    exact Reply.ofRun_error_followedBy hmoved' value halt
  | ok result last =>
    obtain ⟨last', hlast', hmoved'⟩ := hsecond.of_ok hseam hlast
    rw [Run.bind_of_ok hlast', hvalue.relocate_congr hagree]
    exact Reply.ofRun_ok_followedBy hmoved' value result

end Session

/-- **Sequencing.** Let a text end with a newline, or be empty, and let its scan end where it ends
and so outside of strings. Then, in any session that is sound, as sessions are from their beginning
on, another text behind it does what it does in a run of its own, in the session that the first one
leaves, unless the first one stops early. The joined run prints the same, counts the same steps,
leaves the same bindings and ends in the same way, up to a renaming of handles made since; faults of
the second text are found by the lines of the first further down. -/
theorem run_append (session : Session) (settings : Settings) (filename : Option String)
    (source next : String) (program program' : List Stmt) (hsound : session.IsSound)
    (hread : Program.ofSource settings.limit filename session.nextHandle source = .ok program)
    (hread' : Program.ofSource settings.limit filename session.nextHandle next = .ok program')
    (hends : Token.EndsLine source.toList)
    (hclosed : (Token.scan source).2.offset = source.length) :
    let first := session.run settings filename source
    let second := first.session.run settings filename next
    let joined := session.run settings filename (source ++ next)
    ∃ move : Relocation, move.IsFaithful ∧
      (∀ handle < session.nextHandle, move.rename handle = handle) ∧
      match first.outcome with
      | .ok value =>
        move.lines = source.toList.count '\n' ∧
        joined.output = first.output ++ second.output ∧
        joined.steps = first.steps + second.steps ∧
        joined.session.bindings = second.session.bindings.mapValues (Value.relocate move) ∧
        joined.outcome = relocateOutcome move (second.outcome.map (·.or value))
      | .error _ =>
        move.lines = 0 ∧
        joined.output = first.output ∧
        joined.steps = first.steps ∧
        joined.session.bindings = first.session.bindings.mapValues (Value.relocate move) ∧
        joined.outcome = relocateOutcome move first.outcome := by
  intro first second joined
  have hfirst : first = Reply.ofRun
      (Stmt.executeAll settings program (session.afterReading source).machine) :=
    Session.run_of_ofSource hread
  have hfixed (handle : Nat) (h : handle < session.nextHandle) :
      handle < (session.afterReading source).nextHandle :=
    Nat.lt_of_lt_of_le h (Nat.le_add_right _ _)
  cases hrun : Stmt.executeAll settings program (session.afterReading source).machine with
  | ok value machine =>
    -- in the second run the literals of the text have the handles from there on
    obtain ⟨program'', hread''⟩ := Program.exists_ofSource hread' machine.nextHandle
    obtain ⟨-, hle, -⟩ := Session.executed_first hsound hread hrun
    rw [hrun] at hfirst
    have hsecond : second =
        Session.run ⟨machine.bindings, machine.nextHandle⟩ settings filename next := by
      simp only [second, hfirst]
      rfl
    have hjoined : joined = _ := Session.run_append_of_ok hsound hread hrun hread'' hends hclosed
    refine ⟨_, (Relocation.countsOn_swapped hle next.length (source.toList.count '\n')).faithful,
      fun handle h => Relocation.rename_swapped_of_lt (hfixed handle h) _ _ _, ?_⟩
    rw [hfirst, hsecond, hjoined]
    exact ⟨rfl, Reply.output_followedBy _ value _, rfl, rfl, rfl⟩
  | error halt machine =>
    have hjoined : joined = _ := Session.run_append_of_error hsound hread hread' hends hclosed hrun
    rw [hrun] at hfirst
    refine ⟨_, (Relocation.countsOn_pushed _ next.length).faithful,
      fun handle h => Relocation.rename_pushed_of_lt (hfixed handle h) _, ?_⟩
    rw [hfirst, hjoined]
    exact ⟨rfl, rfl, rfl, rfl, rfl⟩

/-- A string made by the first text is the result of both, since the second one has none; in the
joined run it stands behind the literal of the second. -/
theorem run_append_on_kept_result :
    let settings : Settings := { limit := 9 }
    let first := Session.run {} settings none "typeof s\n"
    let second := first.session.run settings none "print \"b\""
    let joined := Session.run {} settings none ("typeof s\n" ++ "print \"b\"")
    ∃ move : Relocation, move.IsFaithful ∧ move.lines = 1 ∧
      joined.output = first.output ++ second.output ∧
      joined.steps = first.steps + second.steps ∧
      joined.session.bindings = second.session.bindings.mapValues (Value.relocate move) ∧
      joined.outcome =
        relocateOutcome move (second.outcome.map (·.or (some (.string ⟨"number", 9⟩)))) := by
  intro settings first second joined
  have hread : Program.ofSource settings.limit none 0 "typeof s\n" =
      .ok [.expression (.typeOf (.name "s" (some ⟨none, 1, 8⟩)) (some ⟨none, 1, 1⟩))
        (some ⟨none, 1, 1⟩)] := by cbv
  have hread' : Program.ofSource settings.limit none 0 "print \"b\"" =
      .ok [.print (.string ⟨"b", 6⟩ (some ⟨none, 1, 7⟩)) (some ⟨none, 1, 1⟩)] := by cbv
  have hends : Token.EndsLine "typeof s\n".toList := by
    intro last hlast
    exact (Option.some.inj hlast).symm
  have hclosed : (Token.scan "typeof s\n").2.offset = "typeof s\n".length := by cbv
  have hfirst : (Session.run {} settings none "typeof s\n").outcome =
      .ok (some (.string ⟨"number", 9⟩)) := by cbv
  obtain ⟨move, hfaithful, -, hjoined⟩ := run_append {} settings none "typeof s\n" "print \"b\"" _ _
    (Bindings.areBelow_empty 0) hread hread' hends hclosed
  rw [hfirst] at hjoined
  exact ⟨move, hfaithful, hjoined⟩

end Scriptlet
