import Mathlib
import Scriptlet.Proofs.Options

/-! # Requests that are dropped

Arguments that name a single file and ask for nothing else are carried out as that file. What else
they ask for is looked for in only some of the spellings in which it can be asked for, and a request
in another spelling is dropped together with the options that are not known.

* `isRequest`: the spellings in which something can be asked for.
* `begun`: what a process begins to carry out; `run_of_begun` ties it to the process.
* `Respells`: other spellings of the same arguments.
* `dispatch_drops_requests`: which requests are dropped, and when the spelling matters. -/

namespace Scriptlet.CommandLine

/-! ## Requests -/

/-- Whether a token asks for inline code or an interactive session, in any spelling. -/
def isRequest (token : String) : Bool :=
  announcesCode token || (inlineCode? token).isSome || token == "-r" || token == "--repl"

/-- What begins with a text begins with every front of it. -/
theorem begins_of_front {front front' token : String} (hfront : front.toList <+: front'.toList)
    (h : Text.begins front' token = true) : Text.begins front token = true :=
  List.isPrefixOf_iff_prefix.2 (hfront.trans (List.isPrefixOf_iff_prefix.1 h))

/-- A token carries inline code if it begins with either spelling of the option and a sign. -/
theorem isSome_inlineCode? (token : String) :
    (inlineCode? token).isSome = (Text.begins "-c=" token || Text.begins "--command=" token) := by
  unfold inlineCode?
  cases Text.begins "-c=" token || Text.begins "--command=" token with
  | true => rfl
  | false => rfl

/-- A request that is not looked for. -/
theorem isRequest_iff_of_not_asksForTask {token : String} (h : asksForTask token = false) :
    isRequest token = true ↔ token = "--repl" ∨ Text.begins "-c=" token = true := by
  simp only [asksForTask, Bool.or_eq_false_iff, beq_eq_false_iff_ne] at h
  obtain ⟨⟨hcode, hprompt⟩, hcommand⟩ := h
  -- both longer spellings of inline code begin in the way that is looked for
  have hequals : ¬ Text.begins "--command=" token = true := by
    intro hbegins
    rw [begins_of_front (by decide) hbegins] at hcommand
    cases hcommand
  have hannounces : ¬ token = "--command" := by
    rintro rfl
    exact absurd hcommand (by decide)
  simp only [isRequest, announcesCode, isSome_inlineCode?, Bool.or_eq_true, beq_iff_eq, hcode,
    hannounces, hequals, hprompt, Bool.false_eq_true, false_or, or_false]
  exact or_comm

/-- A token with a dash that asks for nothing is not known. -/
theorem tasks_unknown (disk : Disk) {token : String} (hdash : Text.begins "-" token = true)
    (hmark : token ≠ "--") (h : isRequest token = false) :
    tasks disk [token] = .error (.usage (.unknownOption token)) := by
  simp only [isRequest, Bool.or_eq_false_iff, Option.isSome_eq_false_iff, Option.isNone_iff_eq_none,
    beq_eq_false_iff_ne] at h
  obtain ⟨⟨⟨hannounces, hinline⟩, hprompt⟩, hlong⟩ := h
  rw [tasks_single disk hmark hannounces, task, hinline]
  simp only [hprompt, hlong, or_self, if_false, hdash, if_true]
  rfl

/-- The task of a token without a dash is a file. -/
theorem task_of_no_dash (disk : Disk) {token : String} (h : Text.begins "-" token = false) :
    task disk token = fileTask disk token := by
  -- inline code and requests all begin with a dash
  have hinline : inlineCode? token = none := by
    rw [← Option.isNone_iff_eq_none, ← Option.isSome_eq_false_iff, isSome_inlineCode?,
      Bool.or_eq_false_iff]
    refine ⟨Bool.eq_false_iff.2 fun hbegins => ?_, Bool.eq_false_iff.2 fun hbegins => ?_⟩
    · rw [begins_of_front (by decide) hbegins] at h
      cases h
    · rw [begins_of_front (by decide) hbegins] at h
      cases h
  have hrequest : ¬ (token = "-r" ∨ token = "--repl") := by
    rintro (rfl | rfl)
    · exact absurd h (by decide)
    · exact absurd h (by decide)
  rw [task, hinline]
  simp only [hrequest, h, Bool.false_eq_true, if_false]

/-- What a token with a dash is that does not ask in a spelling that is looked for. -/
theorem mark_or_dropped (disk : Disk) {token : String} (hdash : Text.begins "-" token = true)
    (hasks : asksForTask token = false) :
    token = "--" ∨ (isRequest token = true ∧ (token = "--repl" ∨ Text.begins "-c=" token = true)) ∨
      tasks disk [token] = .error (.usage (.unknownOption token)) := by
  by_cases hmark : token = "--"
  · exact .inl hmark
  · cases hrequest : isRequest token with
    | true => exact .inr (.inl ⟨rfl, (isRequest_iff_of_not_asksForTask hasks).1 hrequest⟩)
    | false => exact .inr (.inr (tasks_unknown disk hdash hmark hrequest))

/-! ## Commands -/

section Dispatch

variable {disk : Disk} {isTerminal : Bool} {rest : List String}

/-- What the arguments are if there is a file to be carried out as a whole, or one that cannot be
looked up. -/
theorem wholeFile?_cases (disk : Disk) (rest : List String) :
    wholeFile? disk rest = .ok none ∨
      ∃ path, rest.filter (!Text.begins "-" ·) = [path] ∧ rest.any asksForTask = false ∧
        (wholeFile? disk rest = .ok (some path) ∨
          ∃ fault, wholeFile? disk rest = .error fault ∧
            disk.lookUp (Disk.tidy path) = .error fault) := by
  unfold wholeFile?
  split
  -- one argument without a dash is needed, and none that asks for a task
  · rename_i path hpositional
    split
    · exact .inl rfl
    · rename_i hasks
      cases hfound : disk.lookUp (Disk.tidy path) with
      | error fault =>
        exact .inr ⟨path, hpositional, Bool.eq_false_iff.2 hasks, .inr ⟨fault, rfl, hfound⟩⟩
      | ok entry? =>
        match entry? with
        | some (.file raw) => exact .inr ⟨path, hpositional, Bool.eq_false_iff.2 hasks, .inl rfl⟩
        | some .directory => exact .inl rfl
        | none => exact .inl rfl
  · exact .inl rfl

/-- What is asked for with more than a single word. -/
theorem dispatch_eq (disk : Disk) (isTerminal : Bool) (hempty : rest ≠ []) (hinput : rest ≠ ["-"])
    (hprompt : rest ≠ ["--repl"]) :
    dispatch disk isTerminal rest =
      (wholeFile? disk rest).map fun path? => path?.elim (.tokens rest) .file := by
  rw [dispatch, if_neg (mt List.isEmpty_iff.1 hempty), if_neg hinput, if_neg hprompt]
  cases wholeFile? disk rest with
  | error fault => rfl
  | ok path? =>
    cases path? with
    | none => rfl
    | some path => rfl

/-- A file is carried out as a whole if it is found so. -/
theorem wholeFile?_of_dispatch {path : String}
    (h : dispatch disk isTerminal rest = .ok (.file path)) :
    wholeFile? disk rest = .ok (some path) := by
  -- the three commands that are dispatched before a file is looked for
  by_cases hempty : rest = []
  · subst hempty
    cases isTerminal <;> cases h
  by_cases hinput : rest = ["-"]
  · subst hinput
    cases h
  by_cases hprompt : rest = ["--repl"]
  · subst hprompt
    cases h
  rw [dispatch_eq disk isTerminal hempty hinput hprompt] at h
  cases hfound : wholeFile? disk rest with
  | error fault =>
    rw [hfound] at h
    cases h
  | ok path? =>
    rw [hfound] at h
    cases path? with
    | none => cases h
    | some path' =>
      cases h
      rfl

/-- Arguments that ask for an interactive session in the spelling that is looked for are looked at
one after the other. -/
theorem dispatch_of_mem (disk : Disk) (isTerminal : Bool) (h : "-r" ∈ rest) :
    dispatch disk isTerminal rest = .ok (.tokens rest) := by
  have hasks : rest.any asksForTask = true := List.any_eq_true.2 ⟨"-r", h, by decide⟩
  have hwhole : wholeFile? disk rest = .ok none := by
    obtain hnone | ⟨path, -, hasks', -⟩ := wholeFile?_cases disk rest
    · exact hnone
    · rw [hasks'] at hasks
      cases hasks
  have hinput : rest ≠ ["-"] := by
    rintro rfl
    exact absurd h (by decide)
  have hprompt : rest ≠ ["--repl"] := by
    rintro rfl
    exact absurd h (by decide)
  rw [dispatch_eq disk isTerminal (List.ne_nil_of_mem h) hinput hprompt, hwhole]
  rfl

/-- What a file that is carried out as a whole stands among: tokens with a dash, none of which asks
for something in a spelling that is looked for. -/
theorem rest_of_dispatch {path : String} (h : dispatch disk isTerminal rest = .ok (.file path)) :
    rest.filter (!Text.begins "-" ·) = [path] ∧ rest.any asksForTask = false := by
  have hwhole := wholeFile?_of_dispatch h
  obtain hnone | ⟨path', hpositional, hasks, hsome | ⟨fault, herror, -⟩⟩ := wholeFile?_cases disk rest
  · rw [hwhole] at hnone
    cases hnone
  · rw [hwhole] at hsome
    cases hsome
    exact ⟨hpositional, hasks⟩
  · rw [hwhole] at herror
    cases herror

end Dispatch

/-- The tokens around the only one that has no dash. -/
theorem exists_around {rest : List String} {path : String}
    (hpositional : rest.filter (!Text.begins "-" ·) = [path])
    (hasks : rest.any asksForTask = false) :
    ∃ before after, rest = before ++ path :: after ∧
      ∀ token ∈ before ++ after, Text.begins "-" token = true ∧ asksForTask token = false := by
  -- the path is the one argument that is left when those with a dash are dropped
  obtain ⟨before, after, rfl, hbefore, -, hafter⟩ := List.filter_eq_cons_iff.1 hpositional
  refine ⟨before, after, rfl, fun token htoken => ⟨?_, ?_⟩⟩
  · rcases List.mem_append.1 htoken with htoken | htoken
    · simpa using hbefore token htoken
    · simpa using List.filter_eq_nil_iff.1 hafter token htoken
  · have hmem : token ∈ before ++ path :: after :=
      (List.Sublist.append_left (List.sublist_cons_self path after) before).mem htoken
    simpa using List.any_eq_false.1 hasks token hmem

/-! ## What is begun -/

/-- The tasks of a job. Tokens without a task are as good as a request for a session, and tokens that
are refused have no tasks. -/
def jobTasks (disk : Disk) : Job → List Task
  | .source source => [.file source.filename]
  | .prompt => [.prompt]
  | .tokens tokens =>
    match tasks disk tokens with
    | .ok [] => [.prompt]
    | .ok found => found
    | .error _ => []

/-- The tasks of arguments without options, unless they are refused. -/
def plan (disk : Disk) (isTerminal : Bool) (input : String) (rest : List String) : List Task :=
  match dispatch disk isTerminal rest with
  | .ok command =>
    match load disk input command with
    | .ok job => jobTasks disk job
    | .error _ => []
  | .error _ => []

/-- Whether the definitions among options can be made. -/
def areDefined (options : List String) : Bool :=
  (define {} (configure {} options).defines).isOk

/-- The tasks that a process begins to carry out, in their order: none if it is refused. -/
def begun (disk : Disk) (isTerminal : Bool) (input : String) (args : List String) : List Task :=
  let (options, rest) := splitOptions args
  if areDefined options then plan disk isTerminal input rest else []

/-- A job has no tasks if its tokens are refused. -/
theorem jobTasks_eq_nil_iff {disk : Disk} {job : Job} :
    jobTasks disk job = [] ↔ ∃ refusal, action disk job = .error refusal := by
  have hsome {first : Task} {others : List Task} {act : Action Int} :
      first :: others = [] ↔ ∃ refusal, (.ok act : Except Refusal (Action Int)) = .error refusal := by
    refine ⟨fun h => absurd h (List.cons_ne_nil _ _), fun h => ?_⟩
    obtain ⟨refusal, h⟩ := h
    cases h
  cases job with
  | source source => exact hsome
  | prompt => exact hsome
  -- without tasks of their own, tokens still start a session
  | tokens tokens =>
    rw [jobTasks, action]
    cases tasks disk tokens with
    | error refusal => exact ⟨fun _ => ⟨refusal, rfl⟩, fun _ => rfl⟩
    | ok found =>
      cases found with
      | nil => exact hsome
      | cons first others => exact hsome

/-- **What is begun is what the runner has to do.** A process that begins nothing is refused; in any
other one a runner does a job with the tasks that are begun. -/
theorem run_of_begun (disk : Disk) (isTerminal : Bool) (input : String) (args : List String) :
    let config := configure {} (splitOptions args).1
    let outcome := run disk isTerminal input args
    let shown := fun outcome : Outcome => if config.plain then outcome.plain else outcome
    (begun disk isTerminal input args = [] ∧
      ((∃ fault, outcome = ⟨.broken fault, []⟩) ∨
        ∃ command refusal, outcome = .ofRefusal command refusal ∨
          outcome = shown (.ofRefusal command refusal))) ∨
    ∃ session job act, define {} config.defines = .ok session ∧ action disk job = .ok act ∧
      begun disk isTerminal input args = jobTasks disk job ∧ jobTasks disk job ≠ [] ∧
      outcome = shown (.ofResult (act { config, session, input := inputLines input })) := by
  intro config outcome shown
  have hrun : outcome = run disk isTerminal input args := rfl
  unfold run at hrun
  unfold begun plan areDefined
  dsimp only at hrun ⊢
  -- refused or broken while dispatching, loading, defining or planning, nothing is begun
  cases hcommand : dispatch disk isTerminal (splitOptions args).2 with
  | error fault =>
    rw [hcommand] at hrun
    exact .inl ⟨ite_self _, .inl ⟨fault, hrun⟩⟩
  | ok command =>
    rw [hcommand] at hrun
    cases hjob : load disk input command with
    | error refusal =>
      simp only [hjob] at hrun ⊢
      exact .inl ⟨ite_self _, .inr ⟨command, refusal, .inl hrun⟩⟩
    | ok job =>
      simp only [hjob] at hrun ⊢
      unfold carryOut at hrun
      cases hsession : define {} (configure {} (splitOptions args).1).defines with
      | error refusal =>
        rw [hsession] at hrun
        exact .inl ⟨rfl, .inr ⟨command, refusal, .inr hrun⟩⟩
      | ok session =>
        rw [hsession] at hrun
        cases hact : action disk job with
        | error refusal =>
          rw [hact] at hrun
          exact .inl ⟨jobTasks_eq_nil_iff.2 ⟨refusal, hact⟩, .inr ⟨command, refusal, .inr hrun⟩⟩
        | ok act =>
          rw [hact] at hrun
          refine .inr ⟨session, job, act, rfl, hact, rfl, fun hnone => ?_, hrun⟩
          obtain ⟨refusal, hrefusal⟩ := jobTasks_eq_nil_iff.1 hnone
          rw [hact] at hrefusal
          cases hrefusal

/-- Where no code is announced, every token but a mark has its task. -/
theorem exists_task_of_mem {disk : Disk} {tokens : List String} {found : List Task}
    (hannounces : ∀ token ∈ tokens, announcesCode token = false)
    (hfound : tasks disk tokens = .ok found) {token : String} (htoken : token ∈ tokens)
    (hmark : token ≠ "--") : ∃ item ∈ found, task disk token = .ok item := by
  induction tokens generalizing found with
  | nil => cases htoken
  | cons first rest ih =>
    have hrest (token : String) (h : token ∈ rest) : announcesCode token = false :=
      hannounces token (List.mem_cons_of_mem first h)
    by_cases hfirst : first = "--"
    · subst hfirst
      rw [tasks_mark] at hfound
      exact ih hrest hfound ((List.mem_cons.1 htoken).resolve_left hmark)
    · obtain ⟨item, others, hitem, hothers, rfl⟩ :=
        exists_of_tasks_single disk hfirst (hannounces first List.mem_cons_self) hfound
      -- the token is the first one, or its task is among those of the others
      rcases List.mem_cons.1 htoken with rfl | htoken
      · exact ⟨item, List.mem_cons_self, hitem⟩
      · obtain ⟨item', hmem, hitem'⟩ := ih hrest hothers htoken
        exact ⟨item', List.mem_cons_of_mem item hmem, hitem'⟩

/-! ## Other spellings -/

/-- A token, or the long spelling of a request for an interactive session in the place of the short
one. -/
def Respells (token token' : String) : Prop :=
  token' = token ∨ token = "-r" ∧ token' = "--repl"

/-- A task, or inline code of another spelling. -/
inductive Task.Respells : Task → Task → Prop
  /-- The same file. -/
  | file (path : String) : Task.Respells (.file path) (.file path)
  /-- Code that may be spelled like a request. -/
  | code {text text' : String} (h : CommandLine.Respells text text') :
    Task.Respells (.code text) (.code text')
  /-- An interactive session. -/
  | prompt : Task.Respells .prompt .prompt

/-- What reads both spellings of the request alike reads all tokens alike. -/
theorem Respells.congr {α : Type} {token token' : String} (h : Respells token token')
    (read : String → α) (hread : read "--repl" = read "-r") : read token' = read token := by
  rcases h with rfl | ⟨rfl, rfl⟩
  · rfl
  · exact hread

/-- A task is a spelling of itself. -/
theorem Task.respells_self (item : Task) : item.Respells item := by
  cases item with
  | file path => exact .file path
  | code text => exact .code (.inl rfl)
  | prompt => exact .prompt

/-- Tokens that are refused alike, or have the same tasks. -/
inductive SameTasks : Except Refusal (List Task) → Except Refusal (List Task) → Prop
  /-- They are refused for the same reason. -/
  | refused (refusal : Refusal) : SameTasks (.error refusal) (.error refusal)
  /-- They have the same tasks, up to the spelling of inline code. -/
  | found {found found' : List Task} (h : List.Forall₂ Task.Respells found found') :
    SameTasks (.ok found) (.ok found')

/-- The same task in another spelling may stand before tasks that are the same. -/
theorem SameTasks.cons {answer answer' : Except Refusal (List Task)} {item item' : Task}
    (h : SameTasks answer answer') (hitem : item.Respells item') :
    SameTasks (answer.map (item :: ·)) (answer'.map (item' :: ·)) := by
  cases h with
  | refused refusal => exact .refused refusal
  | found hfound => exact .found (.cons hitem hfound)

section Respelled

variable {args args' tokens tokens' : List String} {disk : Disk}

/-- Arguments of another spelling are split alike. -/
theorem respelled_split (h : List.Forall₂ Respells args args') :
    List.Forall₂ Respells (splitOptions args).1 (splitOptions args').1 ∧
      List.Forall₂ Respells (splitOptions args).2 (splitOptions args').2 := by
  induction args using splitOptions_induction generalizing args' with
  | nil =>
    cases h
    exact ⟨.nil, .nil⟩
  | flag token rest hflag ih =>
    obtain _ | ⟨htoken, hrest⟩ := h
    rw [splitOptions_flag hflag, splitOptions_flag ((htoken.congr isFlag (by decide)).trans hflag)]
    exact ⟨.cons htoken (ih hrest).1, (ih hrest).2⟩
  | definition token next rest hannounces ih =>
    obtain _ | ⟨htoken, _ | ⟨hnext, hrest⟩⟩ := h
    rw [splitOptions_definition hannounces,
      splitOptions_definition ((htoken.congr announcesDefinition (by decide)).trans hannounces)]
    exact ⟨.cons htoken (.cons hnext (ih hrest).1), (ih hrest).2⟩
  | other token rest hflag hlast ih =>
    obtain _ | @⟨_, token', _, rest', htoken, hrest⟩ := h
    -- where nothing follows a token, nothing follows it in the other spelling
    have hlast' : announcesDefinition token' = true → rest' = [] := by
      intro hannounces
      rw [htoken.congr announcesDefinition (by decide)] at hannounces
      rw [hlast hannounces] at hrest
      cases hrest
      rfl
    rw [splitOptions_other hflag hlast,
      splitOptions_other ((htoken.congr isFlag (by decide)).trans hflag) hlast']
    exact ⟨(ih hrest).1, .cons htoken (ih hrest).2⟩

/-- An option adds its definition, if it has one, behind those before. -/
theorem defines_applyFlag (config : Config) (token : String) :
    (applyFlag config token).defines = config.defines ++ (applyFlag {} token).defines := by
  unfold applyFlag
  split_ifs <;> simp

/-- Options of another spelling define names of another spelling at most. -/
theorem respelled_applyFlag {token token' : String} {config config' : Config}
    (htoken : Respells token token') (h : List.Forall₂ Respells config.defines config'.defines) :
    List.Forall₂ Respells (applyFlag config token).defines (applyFlag config' token').defines := by
  rw [defines_applyFlag config, defines_applyFlag config',
    htoken.congr (fun token => (applyFlag {} token).defines) (by decide)]
  exact List.rel_append h (List.forall₂_same.2 fun _ _ => .inl rfl)

/-- Options of another spelling make definitions of another spelling. -/
theorem respelled_defines {options options' : List String} {config config' : Config}
    (hoptions : List.Forall₂ Respells options options')
    (h : List.Forall₂ Respells config.defines config'.defines) :
    List.Forall₂ Respells (configure config options).defines
      (configure config' options').defines := by
  induction config, options using configure.induct generalizing options' config' with
  | case1 config =>
    cases hoptions
    rw [configure, configure]
    exact h
  | case2 config token =>
    obtain _ | ⟨htoken, _ | _⟩ := hoptions
    rw [configure, configure]
    exact respelled_applyFlag htoken h
  -- what is announced goes with its option, in either spelling
  | case3 config token next rest hannounces ih =>
    obtain _ | ⟨htoken, _ | ⟨hnext, hrest⟩⟩ := hoptions
    rw [configure, configure, htoken.congr announcesDefinition (by decide), if_pos hannounces,
      if_pos hannounces]
    exact ih hrest (List.rel_append h (.cons hnext .nil))
  | case4 config token next rest hannounces ih =>
    obtain _ | ⟨htoken, _ | ⟨hnext, hrest⟩⟩ := hoptions
    rw [configure, configure, htoken.congr announcesDefinition (by decide), if_neg hannounces,
      if_neg hannounces]
    exact ih (.cons hnext hrest) (respelled_applyFlag htoken h)

/-- Definitions can be made if each of them can be. -/
theorem isOk_define (session : Session) (definitions : List String) :
    (define session definitions).isOk = definitions.all fun definition =>
      (definition? definition).isSome := by
  induction definitions generalizing session with
  | nil => rfl
  | cons definition rest ih =>
    rw [define, List.all_cons]
    cases definition? definition with
    | none => rfl
    | some pair => exact ih _

/-- A definition of another spelling is none, in any spelling. -/
theorem respelled_areDefined (h : List.Forall₂ Respells args args') :
    areDefined args' = areDefined args := by
  have hdefines : List.Forall₂ Respells (configure {} args).defines (configure {} args').defines :=
    respelled_defines h .nil
  rw [areDefined, areDefined, isOk_define, isOk_define]
  generalize (configure {} args).defines = defines at *
  generalize (configure {} args').defines = defines' at *
  induction hdefines with
  | nil => rfl
  | cons hdefinition _ ih =>
    rw [List.all_cons, List.all_cons, ih,
      hdefinition.congr (fun definition => (definition? definition).isSome) (by decide)]

/-- A member of the first row has its counterpart in the second. -/
theorem exists_mem_of_forall₂ {α β : Type} {relates : α → β → Prop} {row : List α} {row' : List β}
    (h : List.Forall₂ relates row row') {item : α} (hitem : item ∈ row) :
    ∃ item' ∈ row', relates item item' := by
  induction h with
  | nil => cases hitem
  | cons hfirst _ ih =>
    rcases List.mem_cons.1 hitem with rfl | hitem
    · exact ⟨_, List.mem_cons_self, hfirst⟩
    · obtain ⟨item', hmem, hrelates⟩ := ih hitem
      exact ⟨item', List.mem_cons_of_mem _ hmem, hrelates⟩

/-- Without a request in the short spelling there is no other one. -/
theorem eq_of_respelled (h : List.Forall₂ Respells args args') (hshort : "-r" ∉ args) :
    args' = args := by
  induction h with
  | nil => rfl
  | cons htoken _ ih =>
    rw [List.mem_cons, not_or] at hshort
    rcases htoken with rfl | ⟨rfl, -⟩
    · rw [ih hshort.2]
    · exact absurd rfl hshort.1

/-- Tokens of another spelling are refused alike, or have the same tasks. -/
theorem respelled_tasks (disk : Disk) : ∀ {tokens tokens' : List String},
    List.Forall₂ Respells tokens tokens' → SameTasks (tasks disk tokens) (tasks disk tokens')
  | [], [], .nil => by
    rw [tasks]
    exact .found .nil
  | token :: rest, token' :: rest', .cons htoken hrest => by
    have hmark' : (token' == "--") = (token == "--") := htoken.congr (· == "--") (by decide)
    have hcode := htoken.congr announcesCode (by decide)
    by_cases hmark : token = "--"
    · rw [hmark, beq_self_eq_true, beq_iff_eq] at hmark'
      rw [hmark, hmark', tasks_mark, tasks_mark]
      exact respelled_tasks disk hrest
    · rw [beq_false_of_ne hmark, beq_eq_false_iff_ne] at hmark'
      cases hannounces : announcesCode token with
      | true =>
        rw [hannounces] at hcode
        obtain _ | ⟨hnext, hrest⟩ := hrest
        · rw [tasks_missing disk hannounces, tasks_missing disk hcode]
          exact .refused _
        · rw [tasks_announced disk hannounces, tasks_announced disk hcode]
          -- code that looks like the request may be respelled, and stays code
          exact (respelled_tasks disk hrest).cons (.code hnext)
      | false =>
        rw [hannounces] at hcode
        rw [tasks_single disk hmark hannounces, tasks_single disk hmark' hcode,
          htoken.congr (task disk) rfl]
        cases task disk token with
        | error refusal => exact .refused refusal
        | ok item => exact (respelled_tasks disk hrest).cons item.respells_self

/-- The first pair of dashes is dropped from both spellings. -/
theorem respelled_erase (h : List.Forall₂ Respells tokens tokens') :
    List.Forall₂ Respells (tokens.erase "--") (tokens'.erase "--") := by
  induction h with
  | nil => exact .nil
  | cons htoken hrest ih =>
    rw [List.erase_cons, List.erase_cons, htoken.congr (· == "--") (by decide)]
    split
    · exact hrest
    · exact .cons htoken ih

/-- Arguments of another spelling ask for help alike. -/
theorem respelled_givesHelpValue (h : List.Forall₂ Respells tokens tokens') :
    givesHelpValue tokens' = givesHelpValue tokens := by
  unfold givesHelpValue
  induction h with
  | nil => rfl
  | cons htoken hrest ih =>
    rw [List.takeWhile_cons, List.takeWhile_cons, htoken.congr (· != "--") (by decide)]
    split
    · rw [List.any_cons, List.any_cons, ih, htoken.congr (Text.begins "--help=") (by decide)]
    · rfl

/-- Tokens of another spelling have the same tasks, up to the spelling of inline code. -/
theorem respelled_jobTasks (disk : Disk) (h : List.Forall₂ Respells tokens tokens') :
    List.Forall₂ Task.Respells (jobTasks disk (.tokens tokens)) (jobTasks disk (.tokens tokens')) := by
  rw [jobTasks, jobTasks]
  have hsame := respelled_tasks disk h
  generalize tasks disk tokens = answer at *
  generalize tasks disk tokens' = answer' at *
  cases hsame with
  | refused refusal => exact .nil
  | found hfound =>
    cases hfound with
    | nil => exact .cons .prompt .nil
    | cons hfirst hothers => exact .cons hfirst hothers

/-- If no request is found in another spelling, then no code is announced. -/
theorem announcesCode_of_respelled (h : List.Forall₂ Respells tokens tokens')
    (hasks : tokens'.any asksForTask = false) {token : String} (htoken : token ∈ tokens) :
    announcesCode token = false := by
  obtain ⟨token', htoken', hrespells⟩ := exists_mem_of_forall₂ h htoken
  rw [← hrespells.congr announcesCode (by decide), Bool.eq_false_iff]
  intro hannounces
  have hasks' : asksForTask token' = false := by
    simpa using List.any_eq_false.1 hasks token' htoken'
  rw [announcesCode, Bool.or_eq_true, beq_iff_eq, beq_iff_eq] at hannounces
  rcases hannounces with rfl | rfl
  · exact absurd hasks' (by decide)
  · exact absurd hasks' (by decide)

end Respelled

/-! ## Where the spelling matters -/

section Plans

variable {disk : Disk} {isTerminal : Bool} {input : String} {tokens rest rest' : List String}

/-- A job of tokens has their tasks, unless they give the help option a value. -/
theorem plan_of_tokens (h : dispatch disk isTerminal rest = .ok (.tokens tokens)) :
    plan disk isTerminal input rest =
      if givesHelpValue tokens then [] else jobTasks disk (.tokens (tokens.erase "--")) := by
  rw [plan, h]
  dsimp only
  rw [load]
  cases givesHelpValue tokens with
  | true => rfl
  | false => rfl

/-- A file is begun as a whole, if it can be opened. -/
theorem plan_of_file (input : String) {path : String}
    (h : dispatch disk isTerminal rest = .ok (.file path)) :
    plan disk isTerminal input rest = [] ∨ plan disk isTerminal input rest = [.file path] := by
  rw [plan, h]
  dsimp only
  rw [load]
  cases disk.read path with
  | ok text => exact .inr rfl
  | error fault =>
    cases fault with
    | blocked obstacle blocked => exact .inl rfl
    | zeroCharacter => exact .inl rfl
    | noPath => exact .inl rfl

/-- Where a session is asked for and no code is announced, every token but a mark has its task,
unless all are refused. -/
theorem exists_task_of_plan (hannounces : ∀ token ∈ rest, announcesCode token = false)
    (hshort : "-r" ∈ rest) (hplan : plan disk isTerminal input rest ≠ []) {token : String}
    (htoken : token ∈ rest) (hmark : token ≠ "--") :
    ∃ item ∈ plan disk isTerminal input rest, task disk token = .ok item := by
  rw [plan_of_tokens (dispatch_of_mem disk isTerminal hshort)] at hplan ⊢
  split at hplan
  · exact absurd rfl hplan
  · rename_i hhelp
    rw [if_neg hhelp]
    -- a plan with tasks has found all of them
    cases hfound : tasks disk (rest.erase "--") with
    | error refusal =>
      rw [jobTasks, hfound] at hplan
      exact absurd rfl hplan
    | ok found =>
      obtain ⟨item, hmem, hitem⟩ := exists_task_of_mem
        (fun token htoken => hannounces token (List.mem_of_mem_erase htoken)) hfound
        ((List.mem_erase_of_ne hmark).2 htoken) hmark
      rw [jobTasks, hfound]
      cases found with
      | nil => cases hmem
      | cons first others => exact ⟨item, hmem, hitem⟩

/-- Where a session is asked for, more is begun than a file. -/
theorem plan_ne_file (hannounces : ∀ token ∈ rest, announcesCode token = false)
    (hshort : "-r" ∈ rest) (path : String) :
    ¬ List.Forall₂ Task.Respells (plan disk isTerminal input rest) [.file path] := by
  intro hplan
  have hsome : plan disk isTerminal input rest ≠ [] := by
    intro hnone
    rw [hnone] at hplan
    cases hplan
  -- the session is among the tasks, and no file is another spelling of it
  obtain ⟨item, hmem, hitem⟩ := exists_task_of_plan hannounces hshort hsome hshort (by decide)
  obtain rfl : Task.prompt = item := Except.ok.inj hitem
  obtain ⟨item', hmem', hitem'⟩ := exists_mem_of_forall₂ hplan hmem
  rw [List.mem_singleton.1 hmem'] at hitem'
  cases hitem'

/-- Where a session is asked for beside a file that cannot be looked up, all is refused. -/
theorem plan_of_lookUp_error (hannounces : ∀ token ∈ rest, announcesCode token = false)
    (hshort : "-r" ∈ rest) {path : String} (hpath : path ∈ rest)
    (hdash : Text.begins "-" path = false) {fault : DiskFault}
    (h : disk.lookUp (Disk.tidy path) = .error fault) : plan disk isTerminal input rest = [] := by
  by_contra hsome
  have hmark : path ≠ "--" := by
    rintro rfl
    exact absurd hdash (by decide)
  obtain ⟨item, -, hitem⟩ := exists_task_of_plan hannounces hshort hsome hpath hmark
  rw [task_of_no_dash disk hdash, fileTask, h] at hitem
  cases hitem

/-- In another spelling the same is begun, unless the arguments are then carried out as a file. -/
theorem respelled_plan (h : List.Forall₂ Respells rest rest') (hshort : "-r" ∈ rest)
    (hfile : ∀ path, dispatch disk isTerminal rest' ≠ .ok (.file path)) :
    List.Forall₂ Task.Respells (plan disk isTerminal input rest)
      (plan disk isTerminal input rest') := by
  have hdispatch := dispatch_of_mem disk isTerminal hshort
  by_cases hlong : rest' = ["--repl"]
  · -- the long request alone is a command of its own
    subst hlong
    obtain _ | ⟨-, _ | _⟩ := h
    rw [← List.mem_singleton.1 hshort] at hdispatch ⊢
    rw [plan_of_tokens hdispatch]
    exact .cons .prompt .nil
  obtain ⟨token, htoken, hrespells⟩ := exists_mem_of_forall₂ h hshort
  have hinput : rest' ≠ ["-"] := by
    rintro rfl
    rw [List.mem_singleton.1 htoken] at hrespells
    exact absurd hrespells (by unfold Respells; decide)
  have hdispatch' := dispatch_eq disk isTerminal (List.ne_nil_of_mem htoken) hinput hlong
  obtain hnone | ⟨path, hpositional, hasks, hsome | ⟨fault, herror, hlookUp⟩⟩ :=
    wholeFile?_cases disk rest'
  · rw [hnone] at hdispatch'
    rw [plan_of_tokens hdispatch, plan_of_tokens hdispatch', respelled_givesHelpValue h]
    split
    · exact .nil
    · exact respelled_jobTasks disk (respelled_erase h)
  · rw [hsome] at hdispatch'
    exact absurd hdispatch' (hfile path)
  · -- nothing is begun, since the file cannot be looked up for its task either
    have hpath : path ∈ rest'.filter (!Text.begins "-" ·) := by
      rw [hpositional]
      exact List.mem_cons_self
    obtain ⟨hmem, hdash⟩ := List.mem_filter.1 hpath
    rw [Bool.not_eq_true'] at hdash
    have hmem' : path ∈ rest := by
      obtain ⟨path', hmem', rfl | ⟨-, rfl⟩⟩ := exists_mem_of_forall₂ h.flip hmem
      · exact hmem'
      · exact absurd hdash (by decide)
    have hannounces (token : String) (htoken : token ∈ rest) : announcesCode token = false :=
      announcesCode_of_respelled h hasks htoken
    have hnone' : plan disk isTerminal input rest' = [] := by
      rw [plan, hdispatch', herror]
      rfl
    rw [plan_of_lookUp_error hannounces hshort hmem' hdash hlookUp, hnone']
    exact .nil

/-- **Where the spelling matters**: if the short request is replaced beside a file. -/
theorem respelled_plan_iff (h : List.Forall₂ Respells rest rest') :
    List.Forall₂ Task.Respells (plan disk isTerminal input rest)
        (plan disk isTerminal input rest') ↔
      ("-r" ∈ rest → ∀ path, dispatch disk isTerminal rest' = .ok (.file path) →
        plan disk isTerminal input rest = [] ∧ plan disk isTerminal input rest' = []) := by
  refine ⟨fun hplan hshort path hfile => ?_, fun hrefused => ?_⟩
  · have hannounces (token : String) (htoken : token ∈ rest) : announcesCode token = false :=
      announcesCode_of_respelled h (rest_of_dispatch hfile).2 htoken
    -- the file alone is begun, or nothing if it cannot be opened
    rcases plan_of_file input hfile with hnone | hfound
    · rw [hnone] at hplan
      exact ⟨List.forall₂_nil_right_iff.1 hplan, hnone⟩
    · rw [hfound] at hplan
      exact absurd hplan (plan_ne_file hannounces hshort path)
  · by_cases hshort : "-r" ∈ rest
    · by_cases hfile : ∃ path, dispatch disk isTerminal rest' = .ok (.file path)
      · obtain ⟨path, hfile⟩ := hfile
        obtain ⟨hnone, hnone'⟩ := hrefused hshort path hfile
        rw [hnone, hnone']
        exact .nil
      · exact respelled_plan h hshort fun path hpath => hfile ⟨path, hpath⟩
    · rw [eq_of_respelled h hshort]
      exact List.forall₂_same.2 fun item _ => item.respells_self

end Plans

/-! ## What is dropped -/

/-- **Requests that are dropped.** Beside a file that is carried out as a whole there are only marks,
the long request for a session, inline code behind an equals sign, and options that are not known. All
but the marks are dropped, so no request or unknown option is dropped if, and only if, there are only
marks. If the long request for a session is put in the place of the short one, somewhere among the
arguments, the same is begun if, and only if, the short one was not asked for, or the arguments are
then not carried out as a file, or nothing is begun in either spelling. -/
theorem dispatch_drops_requests (disk : Disk) (isTerminal : Bool) (args : List String) :
    let rest := (splitOptions args).2
    (∀ path, dispatch disk isTerminal rest = .ok (.file path) →
      ∃ before after, rest = before ++ path :: after ∧
        (∀ token ∈ before ++ after, token = "--" ∨ token = "--repl" ∨
          Text.begins "-c=" token = true ∨
          tasks disk [token] = .error (.usage (.unknownOption token))) ∧
        ((∀ token ∈ before ++ after, isRequest token = false ∧
            tasks disk [token] ≠ .error (.usage (.unknownOption token))) ↔
          ∀ token ∈ before ++ after, token = "--")) ∧
    ∀ input args', List.Forall₂ Respells args args' →
      (List.Forall₂ Task.Respells (begun disk isTerminal input args)
          (begun disk isTerminal input args') ↔
        ("-r" ∈ rest → ∀ path, dispatch disk isTerminal (splitOptions args').2 = .ok (.file path) →
          begun disk isTerminal input args = [] ∧ begun disk isTerminal input args' = [])) := by
  intro rest
  refine ⟨fun path hfile => ?_, fun input args' hargs => ?_⟩
  · obtain ⟨hpositional, hasks⟩ := rest_of_dispatch hfile
    obtain ⟨before, after, hrest, haround⟩ := exists_around hpositional hasks
    have hsort (token : String) (htoken : token ∈ before ++ after) :=
      mark_or_dropped disk (haround token htoken).1 (haround token htoken).2
    refine ⟨before, after, hrest, fun token htoken => ?_, fun hkept token htoken => ?_,
      fun hmarks token htoken => ?_⟩
    · rcases hsort token htoken with hmark | ⟨-, hlong | hequals⟩ | hunknown
      · exact .inl hmark
      · exact .inr (.inl hlong)
      · exact .inr (.inr (.inl hequals))
      · exact .inr (.inr (.inr hunknown))
    · obtain ⟨hrequest, hknown⟩ := hkept token htoken
      rcases hsort token htoken with hmark | ⟨hrequest', -⟩ | hunknown
      · exact hmark
      · rw [hrequest] at hrequest'
        cases hrequest'
      · exact absurd hunknown hknown
    · rw [hmarks token htoken, tasks_mark, tasks]
      refine ⟨by decide, fun hunknown => ?_⟩
      cases hunknown
  · obtain ⟨hoptions, hrest⟩ := respelled_split hargs
    rw [begun, begun]
    dsimp only
    rw [respelled_areDefined hoptions]
    -- without the definitions nothing is begun in any spelling
    cases areDefined (splitOptions args).1 with
    | true => exact respelled_plan_iff hrest
    | false => exact ⟨fun _ _ _ _ => ⟨rfl, rfl⟩, fun _ => .nil⟩

/-- A mark beside a file drops nothing, but the long request for a session does not stand for the
short one there. -/
theorem dispatch_drops_requests_beside_file :
    let disk := Disk.ofFiles [("a.lumen", "print 2\n")]
    (∃ before after, ["--", "a.lumen"] = before ++ "a.lumen" :: after ∧
      ((∀ token ∈ before ++ after, isRequest token = false ∧
          tasks disk [token] ≠ .error (.usage (.unknownOption token))) ↔
        ∀ token ∈ before ++ after, token = "--")) ∧
    ¬ List.Forall₂ Task.Respells (begun disk true "" ["-r", "a.lumen"])
      (begun disk true "" ["--repl", "a.lumen"]) := by
  intro disk
  have hmark : dispatch disk true (splitOptions ["--", "a.lumen"]).2 = .ok (.file "a.lumen") := by
    decide +kernel
  have hlong : dispatch disk true (splitOptions ["--repl", "a.lumen"]).2 =
      .ok (.file "a.lumen") := by decide +kernel
  have hspelling : List.Forall₂ Respells ["-r", "a.lumen"] ["--repl", "a.lumen"] :=
    .cons (.inr ⟨rfl, rfl⟩) (.cons (.inl rfl) .nil)
  have hbegun : begun disk true "" ["--repl", "a.lumen"] ≠ [] := by decide +kernel
  obtain ⟨before, after, hrest, -, hmarks⟩ :=
    (dispatch_drops_requests disk true ["--", "a.lumen"]).1 "a.lumen" hmark
  -- had both spellings begun the same, nothing would have been begun with the file
  refine ⟨⟨before, after, hrest, hmarks⟩, fun hsame => hbegun ?_⟩
  have hspellings := (dispatch_drops_requests disk true ["-r", "a.lumen"]).2 "" _ hspelling
  exact (hspellings.1 hsame (by decide) "a.lumen" hlong).2

/-- The long request for a session is dropped beside a file, and the short one is not. -/
theorem session_dropped_beside_file :
    let disk := Disk.ofFiles [("a.lumen", "print 2\n")]
    let rest := (splitOptions ["--repl", "a.lumen"]).2
    dispatch disk true rest = .ok (.file "a.lumen") ∧ "--repl" ∈ rest ∧ isRequest "--repl" = true ∧
      begun disk true "" ["--repl", "a.lumen"] = [.file "a.lumen"] ∧
      begun disk true "" ["-r", "a.lumen"] = [.prompt, .file "a.lumen"] := by
  decide +kernel

end Scriptlet.CommandLine
