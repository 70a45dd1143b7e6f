import Mathlib.Data.List.Infix
import Scriptlet.Text.Colour

/-! # Texts without their codes

Wherever a code stands in a text it is removed, and nothing else is. Codes do not overlap, so there
is one way only to cut a text at its codes, and the stretches between them are what is left. Where
two stretches are joined, or the texts of two writes, a code may come together of which neither had
more than a part.

* `Cut`: a text and the stretches between its codes.
* `stripCodes_code`, `stripCodes_cons`: what is removed and what is left, step by step.
* `stripColour_leaves_stretches`: what is left of texts that are written one after the other. -/

namespace Scriptlet.Text

/-! ## Codes -/

section Codes

variable (isParameter isFinal : Char → Bool)

/-- A complete code: an escape character, an opening bracket, parameters and a final letter. -/
def IsCode (code : List Char) : Prop :=
  ∃ parameters final, (∀ c ∈ parameters, isParameter c = true) ∧ isFinal final = true ∧
    code = '\x1b' :: '[' :: (parameters ++ [final])

/-- A text in which no code occurs. -/
def IsPlain (text : List Char) : Prop :=
  ∀ code, IsCode isParameter isFinal code → ¬ code <:+: text

/-- A text and the stretches between its codes. No code occurs in a stretch. -/
inductive Cut : List Char → List (List Char) → Prop where
  /-- A text without codes is one stretch. -/
  | last {stretch : List Char} : IsPlain isParameter isFinal stretch → Cut stretch [stretch]
  /-- A stretch, a code, and a text that is cut as well. -/
  | code {stretch code rest : List Char} {stretches : List (List Char)} :
      IsPlain isParameter isFinal stretch → IsCode isParameter isFinal code → Cut rest stretches →
      Cut (stretch ++ (code ++ rest)) (stretch :: stretches)

/-- Wherever an escape character stands, a complete code begins. -/
def EscapesBegin (text : List Char) : Prop :=
  ∀ behind, '\x1b' :: behind <:+ text →
    ∃ code, IsCode isParameter isFinal code ∧ code <+: '\x1b' :: behind

/-- Sorts of characters that tell where a code ends: a parameter does not end it, and an escape
character is neither a parameter nor a final letter. -/
structure Separate : Prop where
  parameter : ∀ c, isParameter c = true → isFinal c = false
  escape_parameter : isParameter '\x1b' = false
  escape_final : isFinal '\x1b' = false

end Codes

section Removal

variable {isParameter isFinal : Char → Bool}

/-- Where a code ends, parameters and one final character have been passed. -/
theorem exists_of_codeEnd? {text rest : List Char}
    (h : codeEnd? isParameter isFinal text = some rest) :
    ∃ parameters final, (∀ c ∈ parameters, isParameter c = true) ∧ isFinal final = true ∧
      text = parameters ++ final :: rest := by
  induction text with
  | nil => cases h
  | cons first others ih =>
    rw [codeEnd?] at h
    split at h
    -- the final character ends the code, a parameter goes on with it, and nothing else may stand
    -- there
    · rename_i hfinal
      cases h
      exact ⟨[], first, List.forall_mem_nil _, hfinal, rfl⟩
    · split at h
      · rename_i hparameter
        obtain ⟨parameters, final, hparameters, hfinal, rfl⟩ := ih h
        exact ⟨first :: parameters, final, List.forall_mem_cons.2 ⟨hparameter, hparameters⟩, hfinal,
          rfl⟩
      · cases h

/-- Parameters and a final character are passed as a whole, whatever follows. -/
theorem codeEnd?_of_parameters (hseparate : Separate isParameter isFinal) {parameters : List Char}
    (hparameters : ∀ c ∈ parameters, isParameter c = true) {final : Char}
    (hfinal : isFinal final = true) (rest : List Char) :
    codeEnd? isParameter isFinal (parameters ++ final :: rest) = some rest := by
  induction parameters with
  | nil => simp [codeEnd?, hfinal]
  | cons first others ih =>
    obtain ⟨hfirst, hothers⟩ := List.forall_mem_cons.1 hparameters
    simp [codeEnd?, hseparate.parameter first hfirst, hfirst, ih hothers]

/-- A code begins with its only escape character. -/
theorem IsCode.eq_escape (hseparate : Separate isParameter isFinal) {code : List Char}
    (h : IsCode isParameter isFinal code) : ∃ rest, code = '\x1b' :: rest ∧ '\x1b' ∉ rest := by
  obtain ⟨parameters, final, hparameters, hfinal, rfl⟩ := h
  refine ⟨_, rfl, ?_⟩
  intro hescape
  simp only [List.mem_cons, List.mem_append, List.not_mem_nil, or_false] at hescape
  rcases hescape with hbracket | hparameter | rfl
  · exact absurd hbracket (by decide)
  · exact absurd (hparameters _ hparameter) (by simp [hseparate.escape_parameter])
  · exact absurd hfinal (by simp [hseparate.escape_final])

/-! ## One step of the removal -/

/-- A code is removed from the front of a text. -/
theorem stripCodes_code (hseparate : Separate isParameter isFinal) {code : List Char}
    (h : IsCode isParameter isFinal code) (rest : List Char) :
    stripCodes isParameter isFinal (code ++ rest) = stripCodes isParameter isFinal rest := by
  obtain ⟨parameters, final, hparameters, hfinal, rfl⟩ := h
  have hend := codeEnd?_of_parameters hseparate hparameters hfinal rest
  simp only [List.cons_append, List.append_assoc, List.nil_append, stripCodes, decide_true,
    Bool.and_self, if_true]
  split
  · rename_i after hafter
    rw [Option.some.inj (hafter.symm.trans hend)]
  · rename_i hnone
    cases hnone.symm.trans hend

/-- A character stays where no code begins. -/
theorem stripCodes_cons {first : Char} {rest : List Char}
    (h : ∀ code, IsCode isParameter isFinal code → ¬ code <+: first :: rest) :
    stripCodes isParameter isFinal (first :: rest) =
      first :: stripCodes isParameter isFinal rest := by
  cases rest with
  | nil => simp [stripCodes]
  | cons second others =>
    rw [stripCodes]
    split
    · rename_i hmark
      split
      · -- here a code would begin
        rename_i after hafter
        rw [Bool.and_eq_true, decide_eq_true_iff, decide_eq_true_iff] at hmark
        obtain ⟨parameters, final, hparameters, hfinal, rfl⟩ := exists_of_codeEnd? hafter
        obtain ⟨rfl, rfl⟩ := hmark
        refine absurd ?_ (h _ ⟨parameters, final, hparameters, hfinal, rfl⟩)
        exact ⟨after, by simp⟩
      · rfl
    · rfl

/-! ## Stretches -/

/-- A code is not empty. -/
theorem IsCode.ne_nil {code : List Char} (h : IsCode isParameter isFinal code) : code ≠ [] := by
  obtain ⟨parameters, final, -, -, rfl⟩ := h
  exact List.cons_ne_nil _ _

/-- The empty stretch is plain. -/
theorem isPlain_nil : IsPlain isParameter isFinal [] :=
  fun _ hcode hoccurs => hcode.ne_nil (List.infix_nil.1 hoccurs)

/-- A stretch is plain if no code begins with its first character and the rest is plain. -/
theorem isPlain_cons {first : Char} {rest : List Char} :
    IsPlain isParameter isFinal (first :: rest) ↔
      (∀ code, IsCode isParameter isFinal code → ¬ code <+: first :: rest) ∧
        IsPlain isParameter isFinal rest := by
  simp only [IsPlain, List.infix_cons_iff, not_or]
  exact ⟨fun h => ⟨fun code hcode => (h code hcode).1, fun code hcode => (h code hcode).2⟩,
    fun h code hcode => ⟨h.1 code hcode, h.2 code hcode⟩⟩

/-- Where there is no escape character there is no code. -/
theorem isPlain_of_not_mem (hseparate : Separate isParameter isFinal) {text : List Char}
    (h : '\x1b' ∉ text) : IsPlain isParameter isFinal text := by
  intro code hcode hoccurs
  obtain ⟨rest, rfl, -⟩ := hcode.eq_escape hseparate
  exact h (hoccurs.subset List.mem_cons_self)

/-- A code that begins inside a stretch would have to end there: it cannot run into the next code,
which begins with an escape character. -/
theorem IsPlain.length_le (hseparate : Separate isParameter isFinal) {stretch behind : List Char}
    (hplain : IsPlain isParameter isFinal stretch)
    (hbehind : ∀ c, behind.head? = some c → c = '\x1b') {before code : List Char}
    (hcode : IsCode isParameter isFinal code) (h : before ++ code <+: stretch ++ behind) :
    stretch.length ≤ before.length := by
  by_contra hshort
  obtain ⟨after, hafter⟩ := h
  rw [List.append_assoc] at hafter
  have hbefore : before <+: stretch ++ behind := ⟨code ++ after, hafter⟩
  obtain ⟨inner, rfl⟩ :=
    List.prefix_of_prefix_length_le hbefore (List.prefix_append _ _) (Nat.le_of_not_le hshort)
  rw [List.append_assoc, List.append_cancel_left_eq] at hafter
  -- the code ends in the stretch, or it reaches an escape behind, and no code holds a second one
  rcases List.append_eq_append_iff.1 hafter with ⟨others, rfl, -⟩ | ⟨others, rfl, rfl⟩
  · exact hplain code hcode ⟨before, others, by rw [List.append_assoc]⟩
  · cases others with
    | nil => exact hplain _ hcode ⟨before, [], by simp⟩
    | cons escape others =>
      obtain rfl := hbehind escape rfl
      obtain ⟨rest, hrest, hescape⟩ := hcode.eq_escape hseparate
      cases inner with
      | nil => exact hshort (by simp)
      | cons first inner =>
        obtain ⟨-, rfl⟩ := List.cons.inj hrest
        exact hescape (List.mem_append_right _ List.mem_cons_self)

/-- A code begins with the escape character. -/
theorem IsCode.head?_append (hseparate : Separate isParameter isFinal) {code : List Char}
    (h : IsCode isParameter isFinal code) (rest : List Char) :
    ∀ c, (code ++ rest).head? = some c → c = '\x1b' := by
  obtain ⟨others, rfl, -⟩ := h.eq_escape hseparate
  rintro c ⟨⟩
  rfl

/-- A stretch stays as it is, whether the text ends behind it or a code begins. -/
theorem IsPlain.stripCodes_append (hseparate : Separate isParameter isFinal)
    {stretch behind : List Char} (hplain : IsPlain isParameter isFinal stretch)
    (hbehind : ∀ c, behind.head? = some c → c = '\x1b') :
    stripCodes isParameter isFinal (stretch ++ behind) =
      stretch ++ stripCodes isParameter isFinal behind := by
  induction stretch with
  | nil => rfl
  | cons first rest ih =>
    have hfront : ∀ code, IsCode isParameter isFinal code → ¬ code <+: first :: (rest ++ behind) :=
      fun code hcode hprefix => by
        -- a code that begins in the stretch cannot reach over the escape behind it
        have hlength : (first :: rest).length ≤ ([] : List Char).length :=
          hplain.length_le hseparate hbehind hcode hprefix
        exact absurd hlength (by simp)
    rw [List.cons_append, stripCodes_cons hfront, ih (isPlain_cons.1 hplain).2, List.cons_append]

/-! ## Cutting a text at its codes -/

/-- What is left of a text are the stretches between its codes. -/
theorem Cut.stripCodes_eq (hseparate : Separate isParameter isFinal) {text : List Char}
    {stretches : List (List Char)} (h : Cut isParameter isFinal text stretches) :
    stripCodes isParameter isFinal text = stretches.flatten := by
  induction h with
  | @last stretch hplain =>
    have hend : stripCodes isParameter isFinal (stretch ++ []) =
        stretch ++ stripCodes isParameter isFinal [] := hplain.stripCodes_append hseparate nofun
    rw [List.append_nil, stripCodes] at hend
    exact hend
  | code hplain hcode _ ih =>
    rw [hplain.stripCodes_append hseparate (hcode.head?_append hseparate _),
      stripCodes_code hseparate hcode, ih, List.flatten_cons]

/-- Induction over a text from its codes: one stands in front, or the first character stays. -/
theorem code_induction {motive : List Char → Prop} (nil : motive [])
    (code : ∀ code rest, IsCode isParameter isFinal code → motive rest → motive (code ++ rest))
    (other : ∀ first rest, (∀ code, IsCode isParameter isFinal code → ¬ code <+: first :: rest) →
      motive rest → motive (first :: rest)) (text : List Char) : motive text := by
  -- on the length, since a code is passed as a whole
  induction hlength : text.length using Nat.strongRecOn generalizing text with
  | ind length ih =>
    by_cases hfront : ∃ found, IsCode isParameter isFinal found ∧ found <+: text
    · obtain ⟨found, hfound, rest, rfl⟩ := hfront
      have hshorter : rest.length < length := by
        rw [← hlength, List.length_append]
        exact Nat.lt_add_of_pos_left (List.length_pos_of_ne_nil hfound.ne_nil)
      exact code found rest hfound (ih rest.length hshorter rest rfl)
    · cases text with
      | nil => exact nil
      | cons first rest =>
        have hshorter : rest.length < length := hlength ▸ Nat.lt_succ_self _
        exact other first rest (fun found hfound hprefix => hfront ⟨found, hfound, hprefix⟩)
          (ih rest.length hshorter rest rfl)

/-- Every text can be cut at its codes. -/
theorem exists_cut (text : List Char) : ∃ stretches, Cut isParameter isFinal text stretches := by
  induction text using code_induction with
  | nil => exact ⟨[[]], .last isPlain_nil⟩
  | code code rest hcode ih =>
    obtain ⟨stretches, hcut⟩ := ih
    exact ⟨[] :: stretches, .code isPlain_nil hcode hcut⟩
  | other first rest hfront ih =>
    obtain ⟨stretches, hcut⟩ := ih
    cases hcut with
    | last hplain => exact ⟨[first :: rest], .last (isPlain_cons.2 ⟨hfront, hplain⟩)⟩
    | @code stretch code behind stretches hplain hcode hcut =>
      -- a code in front of the stretch would be one in front of the text
      have hstretch : IsPlain isParameter isFinal (first :: stretch) := by
        refine isPlain_cons.2 ⟨fun found hfound hprefix => hfront found hfound ?_, hplain⟩
        exact hprefix.trans (List.prefix_append (first :: stretch) (code ++ behind))
      exact ⟨(first :: stretch) :: stretches, .code hstretch hcode hcut⟩

/-- Where a code ends is seen from the code itself. -/
theorem IsCode.append_inj (hseparate : Separate isParameter isFinal) {code code' : List Char}
    (hcode : IsCode isParameter isFinal code) (hcode' : IsCode isParameter isFinal code')
    {rest rest' : List Char} (h : code' ++ rest' = code ++ rest) : rest' = rest := by
  obtain ⟨parameters, final, hparameters, hfinal, rfl⟩ := hcode
  obtain ⟨parameters', final', hparameters', hfinal', rfl⟩ := hcode'
  have htail : parameters' ++ final' :: rest' = parameters ++ final :: rest := by simpa using h
  have hend := codeEnd?_of_parameters hseparate hparameters hfinal rest
  rw [← htail, codeEnd?_of_parameters hseparate hparameters' hfinal' rest'] at hend
  exact Option.some.inj hend

/-- There is only one way to cut a text at its codes. -/
theorem Cut.unique (hseparate : Separate isParameter isFinal) {text : List Char}
    {stretches others : List (List Char)} (h : Cut isParameter isFinal text stretches)
    (hothers : Cut isParameter isFinal text others) : others = stretches := by
  induction h generalizing others with
  | last hplain =>
    cases hothers with
    | last => rfl
    | @code stretch code rest _ _ hcode =>
      exact absurd ⟨stretch, rest, by rw [List.append_assoc]⟩ (hplain code hcode)
  | @code stretch code rest stretches hplain hcode _ ih =>
    generalize htext : stretch ++ (code ++ rest) = text at hothers
    cases hothers with
    | last hwhole =>
      exact absurd ⟨stretch, rest, by rw [List.append_assoc, htext]⟩ (hwhole code hcode)
    | @code stretch' code' rest' stretches' hplain' hcode' hcut' =>
      -- neither of the two first codes begins inside the stretch in front of the other
      have hle : stretch.length ≤ stretch'.length := by
        refine hplain.length_le hseparate (hcode.head?_append hseparate rest) hcode' ?_
        exact ⟨rest', by rw [htext, List.append_assoc]⟩
      have hge : stretch'.length ≤ stretch.length := by
        refine hplain'.length_le hseparate (hcode'.head?_append hseparate rest') hcode ?_
        exact ⟨rest, by rw [← htext, List.append_assoc]⟩
      obtain ⟨rfl, hbehind⟩ := List.append_inj htext (Nat.le_antisymm hle hge)
      obtain rfl := hcode.append_inj hseparate hcode' hbehind.symm
      rw [ih hcut']

/-- If every escape of a text begins a code, then so does every escape of its end. -/
theorem EscapesBegin.of_append {front text : List Char}
    (h : EscapesBegin isParameter isFinal (front ++ text)) :
    EscapesBegin isParameter isFinal text :=
  fun behind hbehind => h behind (hbehind.trans (List.suffix_append front text))

/-- A plain stretch before a code or the end holds no escape, if every escape begins a code. -/
theorem IsPlain.not_mem (hseparate : Separate isParameter isFinal) {stretch behind : List Char}
    (hplain : IsPlain isParameter isFinal stretch)
    (hbehind : ∀ c, behind.head? = some c → c = '\x1b')
    (hbegin : EscapesBegin isParameter isFinal (stretch ++ behind)) : '\x1b' ∉ stretch := by
  intro hescape
  -- an escape begins a code, which a plain stretch has no room for
  obtain ⟨before, after, rfl⟩ := List.append_of_mem hescape
  obtain ⟨code, hcode, hprefix⟩ := hbegin (after ++ behind) ⟨before, by simp⟩
  have hlength : (before ++ '\x1b' :: after).length ≤ before.length := by
    refine hplain.length_le hseparate hbehind hcode ?_
    rw [List.append_assoc, List.prefix_append_right_inj]
    exact hprefix
  rw [List.length_append, List.length_cons] at hlength
  omega

/-- Where escape characters stand in front of codes only, none of them is left. -/
theorem Cut.not_mem_flatten (hseparate : Separate isParameter isFinal) {text : List Char}
    {stretches : List (List Char)} (h : Cut isParameter isFinal text stretches)
    (hbegin : EscapesBegin isParameter isFinal text) : '\x1b' ∉ stretches.flatten := by
  induction h with
  | @last stretch hplain =>
    have hend : ∀ c, ([] : List Char).head? = some c → c = '\x1b' := nofun
    -- nothing stands behind the last stretch
    rw [← List.append_nil stretch] at hbegin
    rw [List.flatten_singleton]
    exact hplain.not_mem hseparate hend hbegin
  | code hplain hcode _ ih =>
    rw [List.flatten_cons, List.mem_append, not_or]
    exact ⟨hplain.not_mem hseparate (hcode.head?_append hseparate _) hbegin,
      ih hbegin.of_append.of_append⟩

end Removal

/-! ## Colours -/

/-- Whether a character can be a parameter of a colour code: a digit or a semicolon. -/
def isColourParameter (c : Char) : Bool :=
  c.isDigit || c == ';'

/-- Whether a character ends a colour code. -/
def isColourEnd (c : Char) : Bool :=
  c == 'm'

/-- No parameter of a colour code is its final letter. -/
theorem separate_colour : Separate isColourParameter isColourEnd where
  parameter c hparameter := by
    cases hend : isColourEnd c with
    | false => rfl
    | true =>
      obtain rfl : c = 'm' := beq_iff_eq.1 hend
      exact absurd hparameter (by decide)
  escape_parameter := by decide
  escape_final := by decide

/-- What is written before and behind coloured text is a code. -/
theorem isCode_colour {parameters : List Char} (h : parameters.all isColourParameter = true) :
    IsCode isColourParameter isColourEnd ('\x1b' :: '[' :: (parameters ++ ['m'])) :=
  ⟨parameters, 'm', List.all_eq_true.1 h, rfl, rfl⟩

/-- To strip the colours of a text is to strip the codes of its characters. -/
theorem toList_stripColour (text : String) :
    (stripColour text).toList = stripCodes isColourParameter isColourEnd text.toList :=
  String.toList_ofList

/-- **Of each text the stretches between its colour codes are left.** A text can be cut at its
colour codes in one way only, and what is left of it are the stretches between them, one after the
other; a code in what is left of texts that are written in a row has come together from more than
one stretch. If in all these texts escape characters stand in front of colour codes only, then no
escape character is left, and there is no colour code in what is left of all of them together. -/
theorem stripColour_leaves_stretches (texts : List String) :
    (∀ text ∈ texts, ∃ stretches,
      (∀ others, Cut isColourParameter isColourEnd text.toList others ↔ others = stretches) ∧
      (stripColour text).toList = stretches.flatten) ∧
    ((∀ text ∈ texts, EscapesBegin isColourParameter isColourEnd text.toList) →
      (∀ text ∈ texts, '\x1b' ∉ (stripColour text).toList) ∧
      IsPlain isColourParameter isColourEnd (String.join (texts.map stripColour)).toList) := by
  -- each text by itself; then no code can come together between texts without escapes
  refine ⟨fun text _ => ?_, fun hbegin => ?_⟩
  · obtain ⟨stretches, hcut⟩ := exists_cut text.toList
    refine ⟨stretches, fun others => ⟨hcut.unique separate_colour, ?_⟩, ?_⟩
    · rintro rfl
      exact hcut
    · rw [toList_stripColour, hcut.stripCodes_eq separate_colour]
  · have hescape : ∀ text ∈ texts, '\x1b' ∉ (stripColour text).toList := by
      intro text htext
      obtain ⟨stretches, hcut⟩ := exists_cut text.toList
      rw [toList_stripColour, hcut.stripCodes_eq separate_colour]
      exact hcut.not_mem_flatten separate_colour (hbegin text htext)
    refine ⟨hescape, isPlain_of_not_mem separate_colour ?_⟩
    rw [String.toList_join, List.mem_flatMap]
    rintro ⟨left, hleft, hmem⟩
    obtain ⟨text, htext, rfl⟩ := List.mem_map.1 hleft
    exact hescape text htext hmem

/-- Of a heading between its codes, and of a code on its own behind it, the words are left. -/
theorem stripColour_leaves_heading :
    let texts := ["\x1b[30;43m ERROR. \x1b[0m plain", "\x1b[m"]
    (∀ text ∈ texts, EscapesBegin isColourParameter isColourEnd text.toList) ∧
      texts.map stripColour = [" ERROR.  plain", ""] ∧
      IsPlain isColourParameter isColourEnd (String.join (texts.map stripColour)).toList := by
  intro texts
  have hbegin : ∀ text ∈ texts, EscapesBegin isColourParameter isColourEnd text.toList := by
    intro text htext behind hbehind
    simp only [texts, List.mem_cons, List.not_mem_nil, or_false] at htext
    rcases htext with rfl | rfl
    -- the texts behind the two escapes
    · have hplaces : behind = "[30;43m ERROR. \x1b[0m plain".toList ∨
          behind = "[0m plain".toList := by
        simpa [List.suffix_cons_iff] using hbehind
      rcases hplaces with rfl | rfl
      · have hcode : "30;43".toList.all isColourParameter = true := by decide
        exact ⟨_, isCode_colour hcode, by decide⟩
      · have hcode : ['0'].all isColourParameter = true := by decide
        exact ⟨_, isCode_colour hcode, by decide⟩
    · obtain rfl : behind = ['[', 'm'] := by simpa [List.suffix_cons_iff] using hbehind
      have hcode : [].all isColourParameter = true := by decide
      exact ⟨_, isCode_colour hcode, by decide⟩
  exact ⟨hbegin, by cbv, ((stripColour_leaves_stretches texts).2 hbegin).2⟩

/-- A code comes together when another one between its halves is removed, or when its halves are
written one after the other. -/
theorem colour_code_comes_together :
    [stripColour "\x1b\x1b[0m[0m"] = ["\x1b[0m"] ∧
      ["\x1b[", "0m"].map stripColour = ["\x1b[", "0m"] ∧
      ¬ ∀ texts : List String,
        IsPlain isColourParameter isColourEnd (String.join (texts.map stripColour)).toList := by
  have hnested : [stripColour "\x1b\x1b[0m[0m"] = ["\x1b[0m"] := by cbv
  have hhalves : ["\x1b[", "0m"].map stripColour = ["\x1b[", "0m"] := by cbv
  have hcode : ['0'].all isColourParameter = true := by decide
  refine ⟨hnested, hhalves, fun h => ?_⟩
  have hplain := h ["\x1b[", "0m"]
  rw [hhalves] at hplain
  exact hplain _ (isCode_colour hcode) ⟨[], [], by decide⟩

end Scriptlet.Text
