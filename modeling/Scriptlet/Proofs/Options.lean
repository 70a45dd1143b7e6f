import Mathlib
import Scriptlet.CommandLine

/-! # Options and inline code

How arguments are split into the options of the runner and the rest, and what is left of inline code
that was announced in front of them. The split does not know that an announced code belongs to the
token before it. It loses nothing and keeps the order on both sides, and what it has split it splits
in the same way again.

* `splitOptions_induction`: what the split does with the first of the arguments.
* `isFlag_of_mem_rest`: what is left is no option.
* `splitOptions_partition`: both sides together are the arguments, and are split like them.
* `splitOptions_inline_code`: when inline code is left in its place. -/

namespace Scriptlet.CommandLine

/-! ## One argument after the other -/

/-- An option on its own announces nothing. -/
theorem announcesDefinition_of_isFlag {token : String} (h : isFlag token = true) :
    announcesDefinition token = false := by
  cases hannounces : announcesDefinition token with
  | false => rfl
  | true =>
    rw [announcesDefinition, Bool.or_eq_true, beq_iff_eq, beq_iff_eq] at hannounces
    rcases hannounces with rfl | rfl
    · exact absurd h (by decide)
    · exact absurd h (by decide)

/-- An option on its own goes to the options. -/
theorem splitOptions_flag {token : String} (hflag : isFlag token = true) (rest : List String) :
    splitOptions (token :: rest) = (token :: (splitOptions rest).1, (splitOptions rest).2) := by
  cases rest with
  | nil => simp only [splitOptions, hflag, if_true]
  | cons next rest =>
    simp only [splitOptions, announcesDefinition_of_isFlag hflag, hflag, Bool.false_eq_true,
      if_false, if_true]

/-- An option that announces a definition goes to the options with the token behind it. -/
theorem splitOptions_definition {token : String} (h : announcesDefinition token = true)
    (next : String) (rest : List String) :
    splitOptions (token :: next :: rest) =
      (token :: next :: (splitOptions rest).1, (splitOptions rest).2) := by
  rw [splitOptions, if_pos h]

/-- A token is left if it is no option, unless it announces a definition and something follows. -/
theorem splitOptions_other {token : String} (hflag : isFlag token = false) {rest : List String}
    (h : announcesDefinition token = true → rest = []) :
    splitOptions (token :: rest) = ((splitOptions rest).1, token :: (splitOptions rest).2) := by
  cases rest with
  | nil => simp only [splitOptions, hflag, Bool.false_eq_true, if_false]
  | cons next rest =>
    have hannounces : announcesDefinition token = false :=
      Bool.eq_false_iff.2 fun hannounces => List.cons_ne_nil _ _ (h hannounces)
    simp only [splitOptions, hannounces, hflag, Bool.false_eq_true, if_false]

/-- Induction over arguments as they are split: the first one is an option, announces a definition
and takes the next one with it, or is left. -/
theorem splitOptions_induction {motive : List String → Prop} (nil : motive [])
    (flag : ∀ token rest, isFlag token = true → motive rest → motive (token :: rest))
    (definition : ∀ token next rest, announcesDefinition token = true → motive rest →
      motive (token :: next :: rest))
    (other : ∀ token rest, isFlag token = false → (announcesDefinition token = true → rest = []) →
      motive rest → motive (token :: rest)) :
    ∀ args, motive args
  | [] => nil
  | [token] => by
    cases hflag : isFlag token with
    | true => exact flag token [] hflag nil
    | false => exact other token [] hflag (fun _ => rfl) nil
  -- a token that announces a definition takes the next one with it, whatever that is
  | token :: next :: rest => by
    cases hannounces : announcesDefinition token with
    | true =>
      exact definition token next rest hannounces
        (splitOptions_induction nil flag definition other rest)
    | false =>
      have hrest := splitOptions_induction nil flag definition other (next :: rest)
      cases hflag : isFlag token with
      | true => exact flag token _ hflag hrest
      | false =>
        refine other token _ hflag (fun h => ?_) hrest
        rw [hannounces] at h
        cases h

/-! ## What is left -/

/-- No option is left. -/
theorem isFlag_of_mem_rest {args : List String} {token : String}
    (h : token ∈ (splitOptions args).2) : isFlag token = false := by
  induction args using splitOptions_induction with
  | nil => cases h
  | flag first rest hflag ih =>
    rw [splitOptions_flag hflag] at h
    exact ih h
  | definition first next rest hannounces ih =>
    rw [splitOptions_definition hannounces] at h
    exact ih h
  | other first rest hflag hlast ih =>
    rw [splitOptions_other hflag hlast] at h
    -- only here is an argument left over, since it is no flag
    rcases List.mem_cons.1 h with rfl | h
    · exact hflag
    · exact ih h

/-- A token that announces a definition is left only at the end, where nothing follows. -/
theorem eq_nil_of_rest_eq {args before after : List String} {token : String}
    (hannounces : announcesDefinition token = true)
    (h : (splitOptions args).2 = before ++ token :: after) : after = [] := by
  induction args using splitOptions_induction generalizing before with
  | nil => cases before <;> cases h
  | flag first rest hflag ih =>
    rw [splitOptions_flag hflag] at h
    exact ih h
  | definition first next rest hfirst ih =>
    rw [splitOptions_definition hfirst] at h
    exact ih h
  | other first rest hflag hlast ih =>
    rw [splitOptions_other hflag hlast] at h
    cases before with
    | nil =>
      obtain ⟨rfl, rfl⟩ := List.cons.inj h
      rw [hlast hannounces, splitOptions]
    -- it was left further on, where the claim holds already
    | cons second before =>
      exact ih (List.cons.inj h).2

/-! ## Both sides of the split -/

/-- A row of tokens that is put together from two others, both of which keep their order. -/
inductive Interleaved : List String → List String → List String → Prop where
  /-- Nothing is put together from nothing. -/
  | nil : Interleaved [] [] []
  /-- The next token is the next one on the left. -/
  | left {token : String} {left right whole : List String} : Interleaved left right whole →
      Interleaved (token :: left) right (token :: whole)
  /-- The next token is the next one on the right. -/
  | right {token : String} {left right whole : List String} : Interleaved left right whole →
      Interleaved left (token :: right) (token :: whole)

/-- The two sides of the split, put together, are the arguments. -/
theorem interleaved_splitOptions (args : List String) :
    Interleaved (splitOptions args).1 (splitOptions args).2 args := by
  induction args using splitOptions_induction with
  | nil => exact .nil
  | flag token rest hflag ih =>
    rw [splitOptions_flag hflag]
    exact .left ih
  | definition token next rest hannounces ih =>
    rw [splitOptions_definition hannounces]
    -- a definition takes its value along
    exact .left (.left ih)
  | other token rest hflag hlast ih =>
    rw [splitOptions_other hflag hlast]
    exact .right ih

/-- A row of options: some stand on their own, the others announce a definition and have it next to
them. -/
inductive AreOptions : List String → Prop where
  /-- No options. -/
  | nil : AreOptions []
  /-- An option on its own. -/
  | flag {token : String} {rest : List String} : isFlag token = true → AreOptions rest →
      AreOptions (token :: rest)
  /-- A definition behind its announcement, whatever it is. -/
  | definition {token : String} (next : String) {rest : List String} :
      announcesDefinition token = true → AreOptions rest → AreOptions (token :: next :: rest)

/-- On the one side of the split stand options with what they announce. -/
theorem areOptions_splitOptions (args : List String) : AreOptions (splitOptions args).1 := by
  induction args using splitOptions_induction with
  | nil => exact .nil
  | flag token rest hflag ih =>
    rw [splitOptions_flag hflag]
    exact .flag hflag ih
  | definition token next rest hannounces ih =>
    rw [splitOptions_definition hannounces]
    exact .definition next hannounces ih
  | other token rest hflag hlast ih =>
    rw [splitOptions_other hflag hlast]
    exact ih

/-- Options are taken out from in front of whatever follows: the last one of them never reaches
for what comes behind. -/
theorem AreOptions.splitOptions_append {options : List String} (h : AreOptions options)
    (args : List String) :
    splitOptions (options ++ args) = (options ++ (splitOptions args).1, (splitOptions args).2) := by
  induction h with
  | nil => rfl
  | flag hflag _ ih =>
    rw [List.cons_append, splitOptions_flag hflag, ih]
    rfl
  | definition next hannounces _ ih =>
    rw [List.cons_append, List.cons_append, splitOptions_definition hannounces, ih]
    rfl

/-- Tokens without options, among which only the last one may announce a definition. -/
def AreLeft (tokens : List String) : Prop :=
  ∀ before token after, tokens = before ++ token :: after →
    isFlag token = false ∧ (announcesDefinition token = true → after = [])

/-- On the other side no option is left, except that a definition may be missing at the end. -/
theorem areLeft_splitOptions (args : List String) : AreLeft (splitOptions args).2 := by
  intro before token after hrest
  have hmem : token ∈ (splitOptions args).2 := by
    rw [hrest]
    exact List.mem_append_right before List.mem_cons_self
  exact ⟨isFlag_of_mem_rest hmem, fun hannounces => eq_nil_of_rest_eq hannounces hrest⟩

/-- Tokens without options are left as they are. -/
theorem AreLeft.splitOptions_eq {tokens : List String} (h : AreLeft tokens) :
    splitOptions tokens = ([], tokens) := by
  induction tokens with
  | nil => rfl
  | cons token rest ih =>
    obtain ⟨hflag, hlast⟩ := h [] token rest rfl
    have hrest : AreLeft rest := fun before found after hfound =>
      h (token :: before) found after (congrArg (token :: ·) hfound)
    rw [splitOptions_other hflag hlast, ih hrest]

/-- **Splitting the arguments is a stable partition.** The options and the rest together are the
arguments, each of them once, and both keep their order. The options are options with the
definitions that they announce; in the rest there is none, except that its last token may announce
a definition which is missing. Splitting either side again, or both behind one another, changes
nothing. -/
theorem splitOptions_partition (args : List String) :
    ∃ options rest, splitOptions args = (options, rest) ∧
      Interleaved options rest args ∧ AreOptions options ∧ AreLeft rest ∧
      splitOptions options = (options, []) ∧ splitOptions rest = ([], rest) ∧
      splitOptions (options ++ rest) = (options, rest) := by
  have hoptions := areOptions_splitOptions args
  have hleft := areLeft_splitOptions args
  have hrest := hleft.splitOptions_eq
  refine ⟨_, _, rfl, interleaved_splitOptions args, hoptions, hleft, ?_, hrest, ?_⟩
  · have hagain := hoptions.splitOptions_append []
    rw [List.append_nil, splitOptions, List.append_nil] at hagain
    exact hagain
  · rw [hoptions.splitOptions_append, hrest, List.append_nil]

example : splitOptions ["a", "-D", "-D", "-vv", "-D"] = (["-D", "-D", "-vv"], ["a", "-D"]) := by
  decide

/-! ## Tasks of tokens -/

section Tasks

variable (disk : Disk)

/-- A pair of dashes is passed over. -/
theorem tasks_mark (rest : List String) : tasks disk ("--" :: rest) = tasks disk rest := by
  rw [tasks.eq_def]
  exact if_pos rfl

/-- An option that announces code is no pair of dashes. -/
theorem ne_mark_of_announcesCode {option : String} (h : announcesCode option = true) :
    option ≠ "--" := by
  rintro rfl
  exact absurd h (by decide)

/-- Code that is announced is a task, whatever it looks like. -/
theorem tasks_announced {option : String} (h : announcesCode option = true) (code : String)
    (rest : List String) :
    tasks disk (option :: code :: rest) = (tasks disk rest).map (.code code :: ·) := by
  rw [tasks, if_neg (ne_mark_of_announcesCode h), if_pos h]
  rfl

/-- Code that is announced and missing is refused. -/
theorem tasks_missing {option : String} (h : announcesCode option = true) :
    tasks disk [option] = .error (.usage .missingCode) := by
  rw [tasks, if_neg (ne_mark_of_announcesCode h), if_pos h]

/-- A token that neither announces code nor is a mark has a task of its own. -/
theorem tasks_single {token : String} (hmark : token ≠ "--") (h : announcesCode token = false)
    (rest : List String) :
    tasks disk (token :: rest) =
      task disk token >>= fun first => (tasks disk rest).map (first :: ·) := by
  rw [tasks.eq_def]
  dsimp only
  rw [if_neg hmark, h, if_neg Bool.false_ne_true]
  cases task disk token with
  | error refusal => rfl
  | ok first => rfl

/-- Any other token has its task by itself, before those of the rest. -/
theorem exists_of_tasks_single {token : String} (hmark : token ≠ "--")
    (h : announcesCode token = false) {rest : List String} {found : List Task}
    (hfound : tasks disk (token :: rest) = .ok found) :
    ∃ first others, task disk token = .ok first ∧ tasks disk rest = .ok others ∧
      found = first :: others := by
  rw [tasks_single disk hmark h] at hfound
  cases hfirst : task disk token with
  | error refusal =>
    rw [hfirst] at hfound
    cases hfound
  | ok first =>
    rw [hfirst] at hfound
    cases hothers : tasks disk rest with
    | error refusal =>
      rw [hothers] at hfound
      cases hfound
    | ok others =>
      rw [hothers] at hfound
      exact ⟨first, others, rfl, rfl, (Except.ok.inj hfound).symm⟩

end Tasks

/-! ## Inline code -/

/-- A token that announces inline code is left. -/
theorem splitOptions_announced {option : String} (h : announcesCode option = true)
    (args : List String) :
    splitOptions (option :: args) = ((splitOptions args).1, option :: (splitOptions args).2) := by
  rw [announcesCode, Bool.or_eq_true, beq_iff_eq, beq_iff_eq] at h
  rcases h with rfl | rfl
  · exact splitOptions_other (by decide) nofun
  · exact splitOptions_other (by decide) nofun

/-- What is left begins with the first argument if it is no option, and unless it announces a
definition and takes the next one with it; in that case another one like it has to be all that is
left. -/
theorem singleton_prefix_rest_iff (token : String) (args : List String) :
    [token] <+: (splitOptions (token :: args)).2 ↔
      isFlag token = false ∧ (announcesDefinition token = true →
        args = [] ∨ (splitOptions args.tail).2 = [token]) := by
  constructor
  · rintro ⟨others, hrest⟩
    have hmem : token ∈ (splitOptions (token :: args)).2 := by
      rw [← hrest]
      exact List.mem_cons_self
    refine ⟨isFlag_of_mem_rest hmem, fun hannounces => ?_⟩
    cases args with
    | nil => exact .inl rfl
    | cons next rest =>
      -- the token itself was taken out, and what is left begins with another one like it
      rw [splitOptions_definition hannounces] at hrest
      have hothers : others = [] := by
        refine eq_nil_of_rest_eq hannounces (?_ : (splitOptions rest).2 = [] ++ token :: others)
        exact hrest.symm
      rw [hothers] at hrest
      exact .inr hrest.symm
  · rintro ⟨hflag, htaken⟩
    by_cases hlast : announcesDefinition token = true → args = []
    · rw [splitOptions_other hflag hlast]
      exact List.prefix_append [token] _
    · obtain ⟨hannounces, hargs⟩ := Classical.not_imp.1 hlast
      obtain ⟨next, rest, rfl⟩ := List.exists_cons_of_ne_nil hargs
      have hrest := (htaken hannounces).resolve_left hargs
      rw [splitOptions_definition hannounces, ← hrest]
      exact List.prefix_rfl

/-- **Inline code may be taken for an option.** What is left of arguments that announce inline code
begins with the announcement and the code if, and only if, the code is not spelled like an option of
the runner, nor like the announcement of a definition to which the next argument would belong. An
option in the place of the code is taken out, and what follows it moves into its place. Where the
code is left, it is the first task, if the tokens behind it have tasks. -/
theorem splitOptions_inline_code {option : String} (hoption : announcesCode option = true)
    (code : String) (post : List String) :
    let rest := (splitOptions (option :: code :: post)).2
    ([option, code] <+: rest ↔
      isFlag code = false ∧ (announcesDefinition code = true →
        post = [] ∨ (splitOptions post.tail).2 = [code])) ∧
    (isFlag code = true → splitOptions (option :: code :: post) =
      (code :: (splitOptions post).1, option :: (splitOptions post).2)) ∧
    ∀ (disk : Disk) (others : List String) (found : List Task),
      rest = option :: code :: others → tasks disk others = .ok found →
        tasks disk rest = .ok (.code code :: found) := by
  intro rest
  have hrest : rest = option :: (splitOptions (code :: post)).2 := by
    show (splitOptions (option :: code :: post)).2 = _
    rw [splitOptions_announced hoption]
  -- when both are left in front, what becomes of code like an option, and what is read off the rest
  refine ⟨?_, fun hflag => ?_, fun disk others found hothers hfound => ?_⟩
  · rw [hrest, List.cons_prefix_cons]
    refine Iff.trans ?_ (singleton_prefix_rest_iff code post)
    exact ⟨And.right, fun h => ⟨rfl, h⟩⟩
  · rw [splitOptions_announced hoption, splitOptions_flag hflag]
  · rw [hothers, tasks_announced disk hoption, hfound]
    rfl

/-- Code that is no option is left in front of the options behind it. -/
theorem splitOptions_inline_code_of_print :
    let rest := (splitOptions ["-c", "print 1", "-i"]).2
    ["-c", "print 1"] <+: rest ∧ tasks (.ofFiles []) rest = .ok [.code "print 1"] := by
  intro rest
  have hoption : announcesCode "-c" = true := by decide
  have hcode : isFlag "print 1" = false ∧ (announcesDefinition "print 1" = true →
      ["-i"] = [] ∨ (splitOptions ["-i"].tail).2 = ["print 1"]) := by decide
  have hrest : rest = ["-c", "print 1"] := by decide
  obtain ⟨hleft, -, htasks⟩ := splitOptions_inline_code hoption "print 1" ["-i"]
  refine ⟨hleft.2 hcode, htasks (.ofFiles []) [] [] hrest ?_⟩
  rw [tasks]

/-- Code that is spelled like an option is not left. -/
theorem inline_code_taken_for_option :
    splitOptions ["-c", "-i"] = (["-i"], ["-c"]) ∧
      ¬ ∀ option code post, announcesCode option = true →
        [option, code] <+: (splitOptions (option :: code :: post)).2 := by
  have hsplit : splitOptions ["-c", "-i"] = (["-i"], ["-c"]) := by decide
  refine ⟨hsplit, fun h => ?_⟩
  have hleft := h "-c" "-i" [] (by decide)
  rw [hsplit] at hleft
  exact absurd hleft (by decide)

end Scriptlet.CommandLine
