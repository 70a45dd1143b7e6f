import Mathlib.Data.List.Forall2
import Scriptlet.Proofs.Dialogue
import Scriptlet.Proofs.Sequencing

/-! # Interactive sessions as texts

The lines of an interactive session, put together, are a text that can be run at once. Where the
session took in all of them without a problem, the run comes to the same: a line that was passed over
is a program that does nothing, lines that were kept are read with those that complete them, and a
program that was run does in one go what it did by itself.

* `Bindings.Alike`: the same bindings up to a pairing of handles.
* `Session.run_alike`: a text does the same in sessions whose bindings are alike.
* `run_joined_lines`: the lines of a session run at once come to the same. -/

namespace Scriptlet

/-- What is alike wherever it stands, up to a pairing of handles. -/
def Likeness.anywhere (pairs : Nat → Nat → Prop) : Likeness :=
  ⟨fun _ _ => True, pairs, fun _ => True⟩

/-! ## Bindings that are alike -/

namespace Bindings

/-- The same names in the same order, bound to values that are alike. -/
def Alike (pairs : Nat → Nat → Prop) (bindings bindings' : Bindings Value) : Prop :=
  List.Forall₂ (fun entry entry' => entry'.1 = entry.1 ∧ entry.2.Like (.anywhere pairs) entry'.2)
    bindings.entries bindings'.entries

variable {pairs pairs' : Nat → Nat → Prop} {bindings bindings' : Bindings Value}

/-- From bindings that are alike, values that are alike are read. -/
theorem Alike.read (h : bindings.Alike pairs bindings') (name : String) :
    (bindings.read name).Like (.anywhere pairs) (bindings'.read name) := by
  unfold Alike at h
  unfold Bindings.read get?
  generalize bindings.entries = entries at h ⊢
  generalize bindings'.entries = entries' at h ⊢
  induction h with
  -- a name that is not bound is read as zero in both
  | nil => exact .number 0
  | @cons entry entry' rest rest' hentry _ ih =>
    rw [List.find?_cons, List.find?_cons, hentry.1]
    split
    · exact hentry.2
    · exact ih

/-- In bindings that are alike, a name may be bound to values that are alike. -/
theorem Alike.insert (h : bindings.Alike pairs bindings') (name : String) {value value' : Value}
    (hvalue : value.Like (.anywhere pairs) value') :
    (bindings.insert name value).Alike pairs (bindings'.insert name value') := by
  unfold Alike at h ⊢
  simp only [Bindings.insert]
  generalize bindings.entries = entries at h ⊢
  generalize bindings'.entries = entries' at h ⊢
  induction h with
  -- a name that is new stands at the end of both
  | nil => exact .cons ⟨rfl, hvalue⟩ .nil
  | @cons entry entry' rest rest' hentry hrest ih =>
    rw [bindEntry, bindEntry, hentry.1]
    split
    · exact .cons ⟨rfl, hvalue⟩ hrest
    · exact .cons hentry ih

/-- Bindings that are alike serve programs that are alike. -/
theorem serve_alike (pairs : Nat → Nat → Prop) : Serve (.anywhere pairs) (Alike pairs) where
  read halike _ := halike.read _
  insert halike _ hvalue := halike.insert _ hvalue

/-- Trace lines show no handles. -/
theorem Alike.shown_eq (h : bindings.Alike pairs bindings') : bindings'.shown = bindings.shown := by
  unfold Alike at h
  unfold Bindings.shown
  generalize bindings.entries = entries at h ⊢
  generalize bindings'.entries = entries' at h ⊢
  induction h with
  | nil => rfl
  | cons hentry _ ih => rw [List.map_cons, List.map_cons, ih, hentry.1, hentry.2.shown_eq]

/-- Bindings are like themselves, with every handle standing for itself. -/
theorem alike_self (bindings : Bindings Value) : bindings.Alike Eq bindings := by
  unfold Alike
  rw [List.forall₂_same]
  intro entry _
  refine ⟨rfl, ?_⟩
  cases entry.2 with
  | number value => exact .number value
  | boolean value => exact .boolean value
  | string value => exact .string (.mk value.content rfl)

/-- Bindings stay alike under another pairing that pairs the handles of their strings. -/
theorem Alike.imp (h : bindings.Alike pairs bindings')
    (hpairs : ∀ entry ∈ bindings.entries, ∀ entry' ∈ bindings'.entries,
      entry.2.Like (.anywhere pairs) entry'.2 → entry.2.Like (.anywhere pairs') entry'.2) :
    bindings.Alike pairs' bindings' := by
  unfold Alike at h ⊢
  generalize bindings.entries = entries at h hpairs ⊢
  generalize bindings'.entries = entries' at h hpairs ⊢
  induction h with
  | nil => exact .nil
  | @cons entry entry' rest rest' hentry hrest ih =>
    refine .cons ⟨hentry.1, ?_⟩ (ih ?_)
    · exact hpairs entry List.mem_cons_self entry' List.mem_cons_self hentry.2
    · intro other hother other' hother'
      exact hpairs other (List.mem_cons_of_mem _ hother) other' (List.mem_cons_of_mem _ hother')

/-- New handles may be paired in order, if those of the bindings were given out before. -/
theorem Alike.beyond (h : bindings.Alike pairs bindings') {bound bound' : Nat}
    (hbelow : bindings.AreBelow bound) (hbelow' : bindings'.AreBelow bound') :
    bindings.Alike (Beyond pairs bound bound') bindings' := by
  refine h.imp fun entry hmem entry' hmem' hlike => ?_
  have hvalue := hbelow entry hmem
  have hvalue' := hbelow' entry' hmem'
  generalize entry.2 = value at hlike hvalue
  generalize entry'.2 = value' at hlike hvalue'
  cases hlike with
  | number value => exact .number value
  | boolean value => exact .boolean value
  | string hstring =>
    obtain ⟨content, hhandle⟩ := hstring
    -- strings that are bound were made before, so their handles are below the bounds
    exact .string (.mk content (.inl ⟨hhandle, hvalue, hvalue'⟩))

/-- Bindings whose values are moved on one side are paired through the move. -/
theorem Alike.mapValues (h : bindings.Alike pairs bindings') (move : Relocation) :
    bindings.Alike (fun handle handle' => ∃ middle, pairs handle middle ∧ handle' = move.rename middle)
      (bindings'.mapValues (Value.relocate move)) := by
  unfold Alike at h ⊢
  simp only [Bindings.mapValues]
  generalize bindings.entries = entries at h ⊢
  generalize bindings'.entries = entries' at h ⊢
  induction h with
  | nil => exact .nil
  | @cons entry entry' rest rest' hentry _ ih =>
    refine .cons ⟨hentry.1, ?_⟩ ih
    obtain ⟨name, value⟩ := entry
    obtain ⟨name', value'⟩ := entry'
    cases hentry.2 with
    | number value => exact .number value
    | boolean value => exact .boolean value
    | string hstring =>
      obtain ⟨content, hhandle⟩ := hstring
      exact .string (.mk content ⟨_, hhandle, rfl⟩)

end Bindings

/-- **A text does the same in sessions whose bindings are alike**, under any name. -/
theorem Session.run_alike {pairs : Nat → Nat → Prop} (hpairing : IsPairing pairs)
    {session session' : Session} (hsound : session.IsSound) (hsound' : session'.IsSound)
    (halike : session.bindings.Alike pairs session'.bindings) {settings : Settings}
    {filename : Option String} (filename' : Option String) {source : String} {program : List Stmt}
    (hread : Program.ofSource settings.limit filename session.nextHandle source = .ok program) :
    (session.run settings filename source).Alike
        (.anywhere (Beyond pairs session.nextHandle session'.nextHandle))
        (session'.run settings filename' source) ∧
      (session.run settings filename source).session.bindings.Alike
        (Beyond pairs session.nextHandle session'.nextHandle)
        (session'.run settings filename' source).session.bindings := by
  let like := Likeness.anywhere (Beyond pairs session.nextHandle session'.nextHandle)
  have hnew (made : Nat) :
      like.handle (session.nextHandle + made) (session'.nextHandle + made) := .inr ⟨made, rfl, rfl⟩
  obtain ⟨program', hread', hlike⟩ := Program.exists_like_of_ofSource like filename'
    session'.nextHandle (fun _ _ => trivial) hnew (fun _ => trivial) hread
  -- handles from before are paired as they were, and new ones in order
  have hsimulation : Simulation like
      (Abreast (Bindings.Alike (Beyond pairs session.nextHandle session'.nextHandle))
        session.nextHandle session'.nextHandle 0 []) settings settings :=
    .abreast (hpairing.beyond _ _) hnew (Bindings.serve_alike _) (.inr fun h => h.shown_eq)
  have hstart : Session.Beside
      (Bindings.Alike (Beyond pairs session.nextHandle session'.nextHandle)) session.nextHandle
      session'.nextHandle (session.afterReading source) (session'.afterReading source) :=
    ⟨halike.beyond hsound hsound', source.length, rfl, rfl⟩
  rw [run_of_ofSource hread, run_of_ofSource hread']
  obtain ⟨hreply, hsessions⟩ := hstart.execute hsimulation hlike
  exact ⟨hreply, hsessions.bindings⟩

/-! ## Runs that come to the same -/

namespace Session

variable {session : Session} {settings : Settings} {filename : Option String} {source next : String}

/-- A text that runs to its end is a program. -/
theorem exists_ofSource_of_run {value : Option Value}
    (h : (session.run settings filename source).outcome = .ok value) :
    ∃ program, Program.ofSource settings.limit filename session.nextHandle source = .ok program := by
  cases hread : Program.ofSource settings.limit filename session.nextHandle source with
  | ok program => exact ⟨program, rfl⟩
  | error rejection =>
    rw [run_of_ofSource_error hread] at h
    cases h

/-- Running a text takes no handle back. -/
theorem IsSound.nextHandle_le (hsound : session.IsSound) (settings : Settings)
    (filename : Option String) (source : String) :
    session.nextHandle ≤ (session.run settings filename source).session.nextHandle := by
  -- reading takes a handle for each character, and running may take more
  have hread : session.nextHandle ≤ (session.afterReading source).nextHandle :=
    Nat.le_add_right _ _
  cases hprogram : Program.ofSource settings.limit filename session.nextHandle source with
  | error rejection =>
    rw [run_of_ofSource_error hprogram]
    exact hread
  | ok program =>
    rw [run_of_ofSource hprogram]
    exact Nat.le_trans hread
      ((hsound.afterReading source).execute (spelled_of_ofSource hprogram)).2.1

/-- Two texts that both run to their ends do so in one go, up to a move that leaves the strings of
before as they are. -/
theorem exists_run_append (hsound : session.IsSound) {value value' : Option Value}
    (hfirst : (session.run settings filename source).outcome = .ok value)
    (hsecond : ((session.run settings filename source).session.run settings filename next).outcome =
      .ok value')
    (hends : Token.EndsLine source.toList)
    (hclosed : (Token.scan source).2.offset = source.length) :
    ∃ move : Relocation, move.IsFaithful ∧
      (∀ handle < session.nextHandle, move.rename handle = handle) ∧
      session.run settings filename (source ++ next) =
        ((session.run settings filename source).followedBy value
          ((session.run settings filename source).session.run settings filename next)).relocate
          move := by
  obtain ⟨program, hread⟩ := exists_ofSource_of_run hfirst
  obtain ⟨program', hread'⟩ := exists_ofSource_of_run hsecond
  rw [run_of_ofSource hread, Session.execute] at hfirst hread' ⊢
  cases hrun : Stmt.executeAll settings program (session.afterReading source).machine with
  | error halt machine =>
    rw [hrun] at hfirst
    cases hfirst
  | ok result machine =>
    rw [hrun] at hfirst hread'
    cases hfirst
    -- strings of the first run come behind its literals, so old handles stay
    obtain ⟨-, hle, -⟩ := executed_first hsound hread hrun
    have hfixed (handle : Nat) (h : handle < session.nextHandle) :
        handle < (session.afterReading source).nextHandle :=
      Nat.lt_of_lt_of_le h (Nat.le_add_right _ _)
    exact ⟨_, (Relocation.countsOn_swapped hle next.length (source.toList.count '\n')).faithful,
      fun handle h => Relocation.rename_swapped_of_lt (hfixed handle h) _ _ _,
      run_append_of_ok hsound hread hrun hread' hends hclosed⟩

end Session

/-- A pairing that leaves the handles below a bound as they are. -/
def KeepsBelow (bound : Nat) (pairs : Nat → Nat → Prop) : Prop :=
  ∀ handle handle', pairs handle handle' → handle < bound ∨ handle' < bound → handle = handle'

/-- A reply comes to given bindings and a given output: the program runs to its end, and the bindings
are the same up to a pairing that leaves the strings of before as they are. -/
structure Reply.ComesTo (bound : Nat) (bindings : Bindings Value) (printed : String)
    (reply : Reply (Option Value)) : Prop where
  outcome : ∃ result, reply.outcome = .ok result
  output : reply.output = printed
  bindings : ∃ pairs, IsPairing pairs ∧ KeepsBelow bound pairs ∧
    bindings.Alike pairs reply.session.bindings

/-- A text that runs to its end may be put in front of one that comes to something. -/
theorem Reply.ComesTo.append {bound : Nat} {bindings : Bindings Value} {printed : String}
    {session : Session} {settings : Settings} {filename : Option String} {source next : String}
    (h : ((session.run settings filename source).session.run settings filename next).ComesTo bound
      bindings printed)
    (hbound : bound ≤ session.nextHandle) (hsound : session.IsSound) {value : Option Value}
    (hfirst : (session.run settings filename source).outcome = .ok value)
    (hends : Token.EndsLine source.toList)
    (hclosed : (Token.scan source).2.offset = source.length) :
    (session.run settings filename (source ++ next)).ComesTo bound bindings
      ((session.run settings filename source).output ++ printed) := by
  obtain ⟨⟨result, hresult⟩, houtput, pairs, hpairing, hkeeps, halike⟩ := h
  obtain ⟨move, hfaithful, hfixed, hrun⟩ :=
    Session.exists_run_append hsound hfirst hresult hends hclosed
  rw [hrun]
  refine ⟨?_, ?_, _, ?_, ?_, halike.mapValues move⟩
  · simp only [Reply.relocate, Reply.followedBy, hresult]
    exact ⟨_, rfl⟩
  · rw [← houtput]
    exact Reply.output_followedBy _ value _
  · rintro handle _ other _ ⟨middle, hmiddle, rfl⟩ ⟨middle', hmiddle', rfl⟩
    rw [hpairing hmiddle hmiddle']
    exact ⟨fun hsame => by rw [hsame], hfaithful _ _⟩
  · rintro handle _ ⟨middle, hmiddle, rfl⟩ hlt
    -- a handle below the bound is not moved, and none is moved there
    have hbelow : middle < bound := by
      rcases hlt with hlt | hlt
      · rwa [← hkeeps handle middle hmiddle (.inl hlt)]
      · have hstays := hfixed _ (Nat.lt_of_lt_of_le hlt hbound)
        rwa [← hfaithful _ _ hstays]
    rw [hfixed middle (Nat.lt_of_lt_of_le hbelow hbound)]
    exact hkeeps handle middle hmiddle (.inr hbelow)

/-- To pair later handles in order keeps the handles below a bound. -/
theorem KeepsBelow.beyond {bound : Nat} {pairs : Nat → Nat → Prop} (h : KeepsBelow bound pairs)
    {reached reached' : Nat} (hreached : bound ≤ reached) (hreached' : bound ≤ reached') :
    KeepsBelow bound (Beyond pairs reached reached') := by
  rintro handle handle' (⟨hpairs, -, -⟩ | ⟨made, rfl, rfl⟩) hlt
  · exact h handle handle' hpairs hlt
  · omega

/-- A text takes bindings to others and prints something, wherever they are up to a pairing of
handles: in every sound session with such bindings it comes to that. -/
def Takes (bound : Nat) (settings : Settings) (filename : Option String) (text : String)
    (start final : Bindings Value) (printed : String) : Prop :=
  ∀ (session : Session) (pairs : Nat → Nat → Prop), session.IsSound → bound ≤ session.nextHandle →
    IsPairing pairs → KeepsBelow bound pairs → start.Alike pairs session.bindings →
    (session.run settings filename text).ComesTo bound final printed

section Takes

variable {bound : Nat} {settings : Settings} {filename : Option String} {text next printed : String}
  {start final : Bindings Value}

/-- A blank text takes bindings to themselves. -/
theorem takes_blank (hlimit : 2 ≤ settings.limit) (h : Text.isBlankText text = true) :
    Takes bound settings filename text start start "" := by
  intro session pairs _ _ hpairing hkeeps halike
  obtain ⟨result, hresult, houtput, hsession⟩ := session.run_blank hlimit filename h
  refine ⟨⟨result, hresult⟩, houtput, pairs, hpairing, hkeeps, ?_⟩
  rw [hsession]
  exact halike

/-- A blank line may be put in front. -/
theorem Takes.skip (h : Takes bound settings filename next start final printed)
    (hlimit : 2 ≤ settings.limit) (hblank : Text.isBlankText text = true)
    (hends : Token.EndsLine text.toList) :
    Takes bound settings filename (text ++ next) start final printed := by
  intro session pairs hsound hbound hpairing hkeeps halike
  obtain ⟨result, hresult, houtput, hsession⟩ := session.run_blank hlimit filename hblank
  have hnext := h _ pairs (hsound.afterReading text)
    (Nat.le_trans hbound (Nat.le_add_right _ _)) hpairing hkeeps halike
  rw [← hsession] at hnext
  have happend := hnext.append hbound hsound hresult hends (Token.offset_scan_blank hblank)
  rwa [houtput, String.empty_append] at happend

/-- A program that runs to its end may be put in front. -/
theorem Takes.run {session : Session} {filename' : Option String} {result : Option Value}
    (h : Takes bound settings filename next (session.run settings filename' text).session.bindings
      final printed)
    (hsound : session.IsSound) (hbound : bound ≤ session.nextHandle)
    (hresult : (session.run settings filename' text).outcome = .ok result)
    (hends : Token.EndsLine text.toList) (hclosed : (Token.scan text).2.offset = text.length) :
    Takes bound settings filename (text ++ next) session.bindings final
      ((session.run settings filename' text).output ++ printed) := by
  intro session' pairs hsound' hbound' hpairing hkeeps halike
  obtain ⟨program, hread⟩ := Session.exists_ofSource_of_run hresult
  -- the program does in the other session what it does in this one
  obtain ⟨hreply, hbindings⟩ := Session.run_alike hpairing hsound hsound' halike filename hread
  have hresult' : ∃ result', (session'.run settings filename text).outcome = .ok result' := by
    have houtcome := hreply.outcome
    rw [hresult] at houtcome
    generalize (session'.run settings filename text).outcome = outcome at houtcome ⊢
    cases houtcome with
    | result => exact ⟨_, rfl⟩
  obtain ⟨result', hresult'⟩ := hresult'
  have hnext := h _ _ hsound'.run (Nat.le_trans hbound' (hsound'.nextHandle_le _ _ _))
    (hpairing.beyond session.nextHandle session'.nextHandle) (hkeeps.beyond hbound hbound') hbindings
  rw [← hreply.output]
  exact hnext.append hbound' hsound' hresult' hends hclosed

end Takes

/-! ## Sessions without a problem -/

namespace Prompt

/-- What is submitted behind a prompt. -/
def Moment.submission? (moment : Moment) : Option Source :=
  moment.lines.head?.bind (Prompt.submission? moment.buffer)

/-- The reply to what is submitted behind a prompt. -/
def Moment.reply? (moment : Moment) : Option (Reply (Option Value)) :=
  moment.submission?.map moment.runner.replyTo

/-- What the program prints that is submitted behind a prompt. -/
def Moment.printed (moment : Moment) : String :=
  (moment.reply?.map Reply.output).getD ""

/-- What is written in a turn without a problem: the prompt, what the program prints and traces, and
its result. -/
def Moment.writes (moment : Moment) : List Write :=
  match moment.lines, moment.reply? with
  | [], _ => []
  | _ :: _, none => [promptWrite moment.buffer]
  | _ :: _, some reply =>
    promptWrite moment.buffer :: reply.journal.filterMap Event.write? ++
      match reply.outcome with
      | .ok result => echo result
      | .error _ => []

/-- Behind a prompt no problem is reported, and what is submitted ends outside of strings. -/
structure Moment.IsQuiet (moment : Moment) : Prop where
  /-- The only problems are those that more text may solve. -/
  unreported : ∀ reply ∈ moment.reply?, ∀ failure problem, reply.outcome = .error failure →
    Problem.ofFailure? failure = some problem → problem.isIncomplete = true
  /-- The scan of what is submitted ends where it ends. -/
  closed : ∀ source ∈ moment.submission?, (Token.scan source.text).2.offset = source.text.length

/-- The first line stands before the lines that are joined behind it. -/
theorem joined_cons (line : String) (rest : List String) :
    joined (line :: rest) = line ++ "\n" ++ joined rest := by
  rw [joined, List.map_cons, String.join_cons, joined]

/-- A text with a newline behind it ends a line. -/
theorem endsLine_newline (text : String) : Token.EndsLine (text ++ "\n").toList := by
  intro last hlast
  rw [String.toList_append, List.getLast?_append] at hlast
  exact (Option.some.inj hlast).symm

/-- An earlier moment does not change the last one. -/
theorem getLast?_moments_cons (moment : Moment) (runner : Runner) (buffer : String)
    (lines : List String) :
    (moment :: moments runner buffer lines).getLast? = (moments runner buffer lines).getLast? := by
  cases lines with
  | nil => rfl
  | cons line rest => rw [moments, List.getLast?_cons_cons]

/-- A blank line stays blank with its newline. -/
theorem isBlankText_newline {line : String} (h : Text.isBlankText line = true) :
    Text.isBlankText (line ++ "\n") = true := by
  rw [Text.isBlankText, String.toList_append, List.all_append]
  rw [Text.isBlankText] at h
  rw [h]
  rfl

section Quiet

variable {runner : Runner} {buffer line : String} {rest : List String}

/-- The reply behind a prompt is the reply to what is submitted. -/
theorem reply?_cons (runner : Runner) (buffer line : String) (rest : List String) :
    Moment.reply? ⟨runner, buffer, line :: rest⟩ =
      (Prompt.submission? buffer line).map runner.replyTo := by
  rfl

/-- What is printed behind a prompt is the output of what is submitted. -/
theorem printed_of_submission {source : Source}
    (h : Prompt.submission? buffer line = some source) :
    Moment.printed ⟨runner, buffer, line :: rest⟩ = (runner.replyTo source).output := by
  rw [Moment.printed, reply?_cons, h]
  rfl

/-- A moment at which nothing is submitted is quiet. -/
theorem Moment.isQuiet_of_no_submission {moment : Moment} (h : moment.submission? = none) :
    moment.IsQuiet := by
  constructor
  · rw [Moment.reply?, h]
    intro reply hreply
    cases hreply
  · rw [h]
    intro source hsource
    cases hsource

/-- A moment is quiet if no problem is reported and what is submitted ends outside of strings. -/
theorem Moment.isQuiet_of_submission {source : Source} {reply : Reply (Option Value)}
    (hsubmission : Prompt.submission? buffer line = some source)
    (hreply : runner.replyTo source = reply)
    (hunreported : ∀ failure problem, reply.outcome = .error failure →
      Problem.ofFailure? failure = some problem → problem.isIncomplete = true)
    (hclosed : (Token.scan source.text).2.offset = source.text.length) :
    Moment.IsQuiet ⟨runner, buffer, line :: rest⟩ := by
  constructor
  · rw [reply?_cons, hsubmission, Option.map_some, hreply]
    intro reply' hreply'
    cases hreply'
    exact hunreported
  · intro source' hsource'
    cases hsubmission.symm.trans hsource'
    exact hclosed

/-- A turn without a problem is not reported. -/
theorem Moment.IsQuiet.not_reported {source : Source} {failure : Failure} {problem : Problem}
    (h : Moment.IsQuiet ⟨runner, buffer, line :: rest⟩)
    (hsubmission : Prompt.submission? buffer line = some source)
    (houtcome : (runner.replyTo source).outcome = .error failure)
    (hproblem : Problem.ofFailure? failure = some problem) (hcomplete : problem.isIncomplete = false) :
    False := by
  have hreply : Moment.reply? ⟨runner, buffer, line :: rest⟩ = some (runner.replyTo source) := by
    rw [reply?_cons, hsubmission]
    rfl
  have hincomplete := h.unreported _ hreply failure problem houtcome hproblem
  rw [hcomplete] at hincomplete
  cases hincomplete

/-- A quiet turn writes what its moment says. -/
theorem Turn.writes_of_quiet {after : Runner} {buffer' : String}
    (hturn : Turn runner buffer line (.goOn buffer') after)
    (h : Moment.IsQuiet ⟨runner, buffer, line :: rest⟩) :
    after.writes = runner.writes ++ Moment.writes ⟨runner, buffer, line :: rest⟩ := by
  cases hturn with
  | skipped hbuffer hblank =>
    have hsubmission : Prompt.submission? buffer line = none := by
      rw [Prompt.submission?, hbuffer, hblank]
      rfl
    simp only [Moment.writes, reply?_cons, hsubmission, Option.map_none, Runner.wrote]
  | @awaited source rejection wanted hsubmission hread hfault =>
    have hreply : runner.replyTo source =
        { outcome := .error (.rejected rejection)
          session := runner.session.afterReading source.text } :=
      Session.run_of_ofSource_error hread
    simp only [Moment.writes, reply?_cons, hsubmission, Option.map_some, hreply,
      List.filterMap_nil, List.append_nil, Runner.wrote]
  | finished hsubmission houtcome =>
    simp only [Moment.writes, reply?_cons, hsubmission, Option.map_some, houtcome, Runner.wrote,
      Runner.carried, List.append_assoc, List.cons_append, List.nil_append]
  -- a quiet moment reports no problem
  | reported hsubmission houtcome hproblem hcomplete =>
    exact (h.not_reported hsubmission houtcome hproblem hcomplete).elim

end Quiet

/-- **The lines of a session that are still to be read do at once what they do one by one**, behind
those that are kept. By induction along the session: a line that is passed over is a blank text in
front of the rest, a line that is kept belongs to the text anyway, and a program that is run is a
text in front of the rest. -/
theorem takes_of_moments {runner after : Runner} {buffer : String} {lines : List String}
    {bound : Nat} (filename : Option String)
    (hend : (moments runner buffer lines).getLast? = some ⟨after, "", []⟩)
    (hquiet : ∀ moment ∈ moments runner buffer lines, moment.IsQuiet)
    (hsound : runner.session.IsSound) (hbound : bound ≤ runner.session.nextHandle) :
    Takes bound { verbosity := runner.config.verbosity } filename (buffer ++ joined lines)
      runner.session.bindings after.session.bindings
      (String.join ((moments runner buffer lines).map Moment.printed)) := by
  have hlimit (verbosity : Nat) : 2 ≤ ({ verbosity } : Settings).limit :=
    show 2 ≤ Program.nestingLimit by decide
  induction runner, buffer, lines using moments_induction with
  | nil runner buffer =>
    cases hend
    have hempty : Text.isBlankText ("" ++ joined []) = true := by decide
    exact takes_blank (hlimit _) hempty
  | leave runner buffer line rest after' heq _ =>
    rw [moments_of_leave heq] at hend
    cases hend
  | goOn runner buffer line rest buffer' after' heq hturn ih =>
    have htext : buffer ++ joined (line :: rest) = buffer ++ line ++ "\n" ++ joined rest := by
      rw [joined_cons, ← String.append_assoc, ← String.append_assoc]
    have hends := endsLine_newline (buffer ++ line)
    rw [moments_of_goOn heq] at hquiet hend ⊢
    rw [getLast?_moments_cons] at hend
    have hnow := hquiet _ List.mem_cons_self
    have hlater := fun moment hmem => hquiet moment (List.mem_cons_of_mem _ hmem)
    rw [htext, List.map_cons, String.join_cons]
    cases hturn with
    | skipped hbuffer hblank =>
      subst hbuffer
      have hprinted : Moment.printed ⟨runner, "", line :: rest⟩ = "" := by
        rw [Moment.printed, reply?_cons, Prompt.submission?, hblank]
        rfl
      have hnext := ih hend hlater hsound hbound
      rw [String.empty_append] at hnext
      rw [hprinted, String.empty_append, String.empty_append]
      exact hnext.skip (hlimit _) (isBlankText_newline hblank) (endsLine_newline line)
    | @awaited source rejection wanted hsubmission hread hfault =>
      -- the text stays the same: the line only moves from what is to be read to what is kept
      have hprinted : Moment.printed ⟨runner, buffer, line :: rest⟩ = "" := by
        rw [printed_of_submission hsubmission, Runner.replyTo]
        rw [Session.run_of_ofSource_error hread]
        rfl
      obtain rfl := submission?_eq_some hsubmission
      rw [hprinted, String.empty_append]
      exact ih hend hlater (hsound.afterReading _) (Nat.le_trans hbound (Nat.le_add_right _ _))
    | @finished source result hsubmission houtcome =>
      have hclosed := hnow.closed source hsubmission
      rw [printed_of_submission hsubmission]
      obtain rfl := submission?_eq_some hsubmission
      have hnext := ih hend hlater hsound.run (Nat.le_trans hbound (hsound.nextHandle_le _ _ _))
      rw [String.empty_append] at hnext
      exact hnext.run hsound hbound houtcome hends hclosed
    | reported hsubmission houtcome hproblem hcomplete =>
      exact (hnow.not_reported hsubmission houtcome hproblem hcomplete).elim

/-- What a session without a problem writes are prompts, what its programs print and trace, and their
results. -/
theorem writes_of_moments {runner after : Runner} {buffer : String} {lines : List String}
    (hend : (moments runner buffer lines).getLast? = some ⟨after, "", []⟩)
    (hquiet : ∀ moment ∈ moments runner buffer lines, moment.IsQuiet) :
    after.writes = runner.writes ++ (moments runner buffer lines).flatMap Moment.writes := by
  induction runner, buffer, lines using moments_induction with
  | nil runner buffer =>
    cases hend
    exact (List.append_nil _).symm
  -- a session that is left does not end behind its last line
  | leave runner buffer line rest after' heq _ =>
    rw [moments_of_leave heq] at hend
    cases hend
  | goOn runner buffer line rest buffer' after' heq hturn ih =>
    rw [moments_of_goOn heq] at hquiet hend ⊢
    rw [getLast?_moments_cons] at hend
    have hnow := hquiet _ List.mem_cons_self
    rw [ih hend fun moment hmem => hquiet moment (List.mem_cons_of_mem _ hmem), List.flatMap_cons,
      ← List.append_assoc]
    rw [hturn.writes_of_quiet hnow]

end Prompt

open Prompt in
/-- **The lines of an interactive session, run at once, come to the same.** Let a session take in all
its lines without reporting a problem, without being left, and with nothing kept at the end, and let
nothing that is submitted end inside a string. Then the text of all lines runs to its end in the
session it was begun in, prints what the programs of the session printed, and leaves the same
bindings in the same order, up to a pairing of handles that leaves the strings of before as they
are. The session itself wrote no more than prompts, what its programs print and trace, and their
results. -/
theorem run_joined_lines (runner after : Runner) (lines : List String) (filename : Option String)
    (hsound : runner.session.IsSound)
    (hend : (moments runner "" lines).getLast? = some ⟨after, "", []⟩)
    (hquiet : ∀ moment ∈ moments runner "" lines, moment.IsQuiet) :
    let reply := runner.session.run { verbosity := runner.config.verbosity } filename (joined lines)
    loop "" lines runner = .ok [] (after.wrote [⟨.output, mark ""⟩, ⟨.output, "\n"⟩]) ∧
    after.writes = runner.writes ++ (moments runner "" lines).flatMap Moment.writes ∧
    (∃ result, reply.outcome = .ok result) ∧
    reply.output = String.join ((moments runner "" lines).map Moment.printed) ∧
    ∃ pairs : Nat → Nat → Prop, IsPairing pairs ∧
      (∀ handle handle', pairs handle handle' →
        handle < runner.session.nextHandle ∨ handle' < runner.session.nextHandle →
        handle = handle') ∧
      after.session.bindings.Alike pairs reply.session.bindings := by
  intro reply
  have hloop := loop_of_mem_moments (List.mem_of_getLast? hend)
  -- with no lines left, the session prompts once more and ends the line
  have hlast : loop "" [] after =
      .ok [] (after.wrote [⟨.output, mark ""⟩, ⟨.output, "\n"⟩]) := by
    have hwrites : loop "" [] after =
        .ok [] ((after.wrote [⟨.output, mark ""⟩]).wrote [⟨.output, "\n"⟩]) := rfl
    rw [hwrites]
    simp only [Runner.wrote, List.append_assoc, List.cons_append, List.nil_append]
  have hkeeps : KeepsBelow runner.session.nextHandle Eq := fun _ _ hsame _ => hsame
  -- the joined lines take the bindings of the session where the turns take them
  have htakes := takes_of_moments filename hend hquiet hsound (Nat.le_refl _) runner.session Eq hsound
    (Nat.le_refl _) isPairing_eq hkeeps (Bindings.alike_self _)
  rw [String.empty_append] at htakes
  exact ⟨hloop.symm.trans hlast, writes_of_moments hend hquiet, htakes.outcome, htakes.output,
    htakes.bindings⟩

open Prompt in
/-- A string that is assigned and printed over two lines, and a blank line behind them. The session
reads the first line twice, so that there the string has another handle than in the text of all
lines. -/
theorem run_joined_lines_on_split_block :
    let lines := ["if (t = \"a\") === t \x7b", "print t \x7d", " "]
    let reply := Session.run {} {} none (joined lines)
    ∃ after, (moments {} "" lines).getLast? = some ⟨after, "", []⟩ ∧
      after.session.bindings = .ofList [("t", .string ⟨"a", 29⟩)] ∧
      (∃ result, reply.outcome = .ok result) ∧ reply.output = "a\n" ∧
      ∃ pairs : Nat → Nat → Prop, IsPairing pairs ∧
        after.session.bindings.Alike pairs reply.session.bindings := by
  intro lines reply
  -- what is read under a low limit is read under the limit of the session
  have hlimit : 9 ≤ Program.nestingLimit := by decide
  have hbroken : Program.ofSource 9 (some sourceName) 0 "if (t = \"a\") === t \x7b\n" =
      .error ⟨.incomplete .closeBlock, some sourceName, ⟨21, 2, 21⟩⟩ := by cbv
  have hwhole : Program.ofSource 9 (some sourceName) 21
        "if (t = \"a\") === t \x7b\nprint t \x7d\n" =
      .ok [.cond (.binary (.binary (.name "t" (some ⟨some sourceName, 1, 5⟩)) .assign
          (.string ⟨"a", 29⟩ (some ⟨some sourceName, 1, 9⟩)) (some ⟨some sourceName, 1, 7⟩)) .same
          (.name "t" (some ⟨some sourceName, 1, 18⟩)) (some ⟨some sourceName, 1, 14⟩))
        (.block [.print (.name "t" (some ⟨some sourceName, 2, 7⟩)) (some ⟨some sourceName, 2, 1⟩)]
          (some ⟨some sourceName, 1, 20⟩)) (some ⟨some sourceName, 1, 1⟩)] := by cbv
  replace hbroken := Program.ofSource_of_le hlimit hbroken (by rintro _ ⟨⟩ ⟨⟩)
  replace hwhole := Program.ofSource_of_le hlimit hwhole (by rintro _ ⟨⟩)
  -- the first line is kept, and with the second one it is a program
  have hsubmission : submission? "" "if (t = \"a\") === t \x7b" =
      some ⟨"if (t = \"a\") === t \x7b\n", sourceName⟩ := rfl
  have hsubmission' : submission? "if (t = \"a\") === t \x7b\n" "print t \x7d" =
      some ⟨"if (t = \"a\") === t \x7b\nprint t \x7d\n", sourceName⟩ := rfl
  have hblank : submission? "" " " = none := rfl
  have hrefused : Runner.replyTo {} ⟨"if (t = \"a\") === t \x7b\n", sourceName⟩ = _ :=
    Session.run_of_ofSource_error hbroken
  have hfirst := turn_of_incomplete {} hsubmission hbroken rfl
  generalize hkept : { Runner.wrote {} [promptWrite ""] with
      session := Session.afterReading {} "if (t = \"a\") === t \x7b\n" } = kept at hfirst
  have hreply : kept.replyTo ⟨"if (t = \"a\") === t \x7b\nprint t \x7d\n", sourceName⟩ =
      { outcome := .ok none
        session := ⟨.ofList [("t", .string ⟨"a", 29⟩)], 53⟩
        journal := [.stored "t", .printed "a"]
        steps := 2 } := by
    have hsession : kept.session = ⟨.empty, 21⟩ := by subst hkept; rfl
    have hconfig : kept.config = {} := by subst hkept; rfl
    have hrun : Session.run ⟨.empty, 21⟩ {} (some sourceName)
        "if (t = \"a\") === t \x7b\nprint t \x7d\n" = _ := Session.run_of_ofSource hwhole
    rw [Runner.replyTo, hsession, hconfig]
    refine hrun.trans ?_
    cbv
  have hsecond := turn_of_result kept hsubmission' (congrArg Reply.outcome hreply)
  rw [hreply] at hsecond
  generalize hdone : ((kept.wrote [promptWrite "if (t = \"a\") === t \x7b\n"]).carried
    { outcome := .ok none
      session := ⟨.ofList [("t", .string ⟨"a", 29⟩)], 53⟩
      journal := [.stored "t", .printed "a"]
      steps := 2 }).wrote (echo none) = done at hsecond
  have hthird := (turn_of_no_submission done hblank).1
  rw [if_pos (by decide)] at hthird
  have hmoments : moments {} "" lines =
      [⟨{}, "", lines⟩, ⟨kept, "if (t = \"a\") === t \x7b\n", ["print t \x7d", " "]⟩,
        ⟨done, "", [" "]⟩, ⟨done.wrote [promptWrite ""], "", []⟩] := by
    rw [moments_of_goOn hfirst, moments_of_goOn hsecond, moments_of_goOn hthird, moments]
  have hquiet : ∀ moment ∈ moments {} "" lines, moment.IsQuiet := by
    rw [hmoments]
    simp only [List.forall_mem_cons, List.not_mem_nil, false_imp_iff, implies_true, and_true]
    refine ⟨?_, ?_, ?_, ?_⟩
    · refine Moment.isQuiet_of_submission hsubmission hrefused ?_ (by cbv)
      intro failure problem hfailure hproblem
      cases hfailure
      cases hproblem
      rfl
    · refine Moment.isQuiet_of_submission hsubmission' hreply ?_ (by cbv)
      intro failure problem hfailure
      cases hfailure
    · exact Moment.isQuiet_of_no_submission hblank
    · exact Moment.isQuiet_of_no_submission rfl
  have hend : (moments {} "" lines).getLast? = some ⟨done.wrote [promptWrite ""], "", []⟩ := by
    rw [hmoments]
    rfl
  obtain ⟨-, -, houtcome, houtput, pairs, hpairing, -, halike⟩ :=
    run_joined_lines {} _ lines none (Bindings.areBelow_empty 0) hend hquiet
  refine ⟨_, hend, ?_, houtcome, ?_, pairs, hpairing, halike⟩
  · subst hdone
    rfl
  · refine houtput.trans ?_
    have hnothing : Moment.printed ⟨{}, "", lines⟩ = "" := by
      rw [printed_of_submission hsubmission, hrefused]
      rfl
    have hprinted : Moment.printed
        ⟨kept, "if (t = \"a\") === t \x7b\n", ["print t \x7d", " "]⟩ = "a\n" := by
      rw [printed_of_submission hsubmission', hreply]
      rfl
    rw [hmoments, List.map_cons, List.map_cons, hnothing, hprinted]
    rfl

end Scriptlet
