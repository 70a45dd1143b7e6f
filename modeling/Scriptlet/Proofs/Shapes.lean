import Scriptlet.Proofs.Scanning

/-! # The shapes of tokens

What a span of characters has to look like to be a token, said apart from how tokens are looked for.
A shape says which characters a token is made of and, where that matters, what may stand behind it.

* `Spells shape span behind token`: the span, in front of what is behind it, has the shape and
  spells the token.
* `Recognises`: a recogniser finds exactly the tokens of one shape.
* `front_cuts`: the token at the front of a text has the first shape, in the order of `Shape.order`,
  that the text has at its front at all. -/

namespace Scriptlet

/-! ## Reserved words and operators -/

/-- The list of reserved words is complete. -/
theorem Keyword.mem_all (word : Keyword) : word ∈ Keyword.all := by
  cases word <;> decide

/-- A reserved word begins with a character that is no quote. -/
theorem Keyword.exists_characters (word : Keyword) :
    ∃ first tail, word.characters = first :: tail ∧ first ≠ '"' := by
  cases word <;> exact ⟨_, _, rfl, by decide⟩

/-- An operator is spelled with a first character that is no quote. -/
theorem Operator.exists_spelling (op : Operator) :
    ∃ first tail, op.spelling.toList = first :: tail ∧ first ≠ '"' := by
  cases op <;> exact ⟨_, _, rfl, by decide⟩

/-- The operators are listed from the longest spelling to the shortest. -/
theorem Operator.all_descending :
    Operator.all.Pairwise fun op other => other.spelling.length ≤ op.spelling.length := by
  decide

namespace Token

/-! ## Shapes -/

/-- The shapes of tokens. -/
inductive Shape where
  /-- A number. -/
  | number
  /-- The end of a line. -/
  | newline
  /-- A parenthesis or brace. -/
  | bracket
  /-- A reserved word. -/
  | keyword
  /-- An operator. -/
  | operator
  /-- A string literal. -/
  | text
  /-- A name. -/
  | name
  deriving Repr, DecidableEq

/-- The shapes in the order in which they are tried. -/
def Shape.order : List Shape :=
  [.number, .newline, .bracket, .keyword, .operator, .text, .name]

/-- The shapes that are tried before a shape. -/
def Shape.earlier (shape : Shape) : List Shape :=
  order.takeWhile (· != shape)

/-- The brackets and their tokens. -/
def brackets : List (Char × Token) :=
  [('(', .openParen), (')', .closeParen), ('{', .openBrace), ('}', .closeBrace)]

/-- A span of characters, in front of what is behind it, has a shape and spells a token. -/
inductive Spells : Shape → List Char → List Char → Token → Prop where
  /-- A number is a run of digits and points that does not go on, with at least one digit and at
  most one point. -/
  | number {run behind : List Char} {value : Float} (hrun : ∀ c ∈ run, Decimal.isNumeric c = true)
      (hdigit : ∃ c ∈ run, c.isDigit = true) (hpoints : run.count '.' ≤ 1)
      (hbehind : ∀ c, behind.head? = some c → Decimal.isNumeric c = false)
      (hvalue : Decimal.ofRun? run = some value) : Spells .number run behind (.number value)
  /-- The end of a line is one newline. -/
  | newline {behind : List Char} : Spells .newline ['\n'] behind .newline
  /-- A bracket is its one character. -/
  | bracket {c : Char} {token : Token} {behind : List Char} (hmem : (c, token) ∈ brackets) :
      Spells .bracket [c] behind token
  /-- A reserved word takes one space behind it, unless it begins an alternative. -/
  | keyword {behind : List Char} (word : Keyword) :
      Spells .keyword (word.word.toList ++ if word = .otherwise then [] else [' ']) behind
        (.keyword word)
  /-- An operator is a spelling that no longer spelling extends. -/
  | operator {op : Operator} {behind : List Char}
      (hlongest : ∀ other : Operator, other.spelling.toList <+: op.spelling.toList ++ behind →
        other.spelling.length ≤ op.spelling.length) :
      Spells .operator op.spelling.toList behind (.operator op)
  /-- A string goes from one quote to the next. -/
  | closedText {content behind : List Char} (hcontent : '"' ∉ content) :
      Spells .text ('"' :: (content ++ ['"'])) behind (.text (String.ofList content))
  /-- A string without a closing quote goes to the end. -/
  | openText {content : List Char} (hcontent : '"' ∉ content) :
      Spells .text ('"' :: content) [] (.text (String.ofList content))
  /-- A name has no blanks behind its first character, and ends before a blank or at the end. -/
  | name {first : Char} {tail behind : List Char} (htail : ∀ c ∈ tail, Text.isBlank c = false)
      (hbehind : ∀ c, behind.head? = some c → Text.isBlank c = true) :
      Spells .name (first :: tail) behind (.name (String.ofList (first :: tail)))

/-- A text has a shape at its front. -/
def Shape.Matches (shape : Shape) (input : List Char) : Prop :=
  ∃ span behind token, input = span ++ behind ∧ Spells shape span behind token

/-- A text begins with a quote and holds no other, and the token is the string up to its end. -/
def Unterminated (input : List Char) (token : Token) : Prop :=
  ∃ content, input = '"' :: content ∧ '"' ∉ content ∧ token = .text (String.ofList content)

/-- What was found at the front of a text has a shape, and takes characters of the text only; a
string that is never closed takes one more, for the quote that is missing. -/
structure Cuts (shape : Shape) (input : List Char) (found : Token × Nat) : Prop where
  spells : Spells shape (input.take found.2) (input.drop found.2) found.1
  length : found.2 ≤ input.length ∧ ¬ Unterminated input found.1 ∨
    found.2 = input.length + 1 ∧ Unterminated input found.1

/-- A recogniser finds the tokens of one shape and no others. -/
structure Recognises (recogniser : List Char → Option (Token × Nat)) (shape : Shape) : Prop where
  cuts : ∀ {input : List Char} {found : Token × Nat}, recogniser input = some found →
    Cuts shape input found
  found : ∀ {input : List Char}, shape.Matches input → recogniser input ≠ none

/-- What is not recognised does not have the shape. -/
theorem Recognises.not_matches {recogniser : List Char → Option (Token × Nat)} {shape : Shape}
    (h : Recognises recogniser shape) {input : List Char} (hnone : recogniser input = none) :
    ¬ shape.Matches input :=
  fun hmatches => h.found hmatches hnone

/-! ## The recognisers -/

/-- What does not begin with a quote is no string that is never closed. -/
theorem not_unterminated {first : Char} (h : first ≠ '"') (rest : List Char) (token : Token) :
    ¬ Unterminated (first :: rest) token := by
  rintro ⟨content, heq, -⟩
  exact h (List.cons.inj heq).1

/-- What takes a span from the front of a text, and no quote, cuts it off there. -/
theorem cuts_of_spells {shape : Shape} {first : Char} {span behind : List Char} {token : Token}
    (hspells : Spells shape (first :: span) behind token) (hfirst : first ≠ '"') :
    Cuts shape (first :: span ++ behind) (token, (first :: span).length) where
  spells := by
    rw [List.take_left, List.drop_left]
    exact hspells
  length := by
    -- only a string may reach behind the end
    refine .inl ⟨?_, not_unterminated hfirst _ _⟩
    rw [List.length_append]
    exact Nat.le_add_right _ _

/-- The front of a run and what is behind it. -/
theorem head?_dropWhile {p : Char → Bool} {input : List Char} {c : Char}
    (h : (input.dropWhile p).head? = some c) : p c = false := by
  have hnot := List.head?_dropWhile_not p input
  rw [h] at hnot
  exact hnot

/-- A run that ends where something else begins is the longest. -/
theorem takeWhile_append_eq {p : Char → Bool} {run behind : List Char}
    (hrun : ∀ c ∈ run, p c = true) (hbehind : ∀ c, behind.head? = some c → p c = false) :
    (run ++ behind).takeWhile p = run := by
  have hstop : behind.takeWhile p = [] := by
    cases behind with
    | nil => rfl
    | cons c rest => rw [List.takeWhile_cons, hbehind c rfl]; rfl
  rw [List.takeWhile_append_of_pos hrun, hstop, List.append_nil]

/-- Where a character is not found, all characters are others. -/
theorem bne_of_not_mem {stop : Char} {text : List Char} (h : stop ∉ text) :
    ∀ c ∈ text, (c != stop) = true := by
  intro c hmem
  rw [bne_iff_ne]
  rintro rfl
  exact h hmem

/-- A run up to a character does not hold it. -/
theorem not_mem_takeWhile (stop : Char) (text : List Char) :
    stop ∉ text.takeWhile (· != stop) := by
  intro hmem
  have hne := List.all_eq_true.1 List.all_takeWhile _ hmem
  simp at hne

/-- What is left behind such a run begins with the character. -/
theorem eq_of_dropWhile {stop c : Char} {text behind : List Char}
    (h : text.dropWhile (· != stop) = c :: behind) : c = stop := by
  have hhead : (text.dropWhile (· != stop)).head? = some c := by rw [h]; rfl
  simpa using head?_dropWhile hhead

/-- A quote is no part of a number. -/
theorem not_numeric_quote : Decimal.isNumeric '"' = false := by decide

/-- A run has a value exactly if it has a digit and at most one point. -/
theorem ofRun?_isSome {run : List Char} :
    (Decimal.ofRun? run).isSome = true ↔ (∃ c ∈ run, c.isDigit = true) ∧ run.count '.' ≤ 1 := by
  unfold Decimal.ofRun?
  split
  · rename_i h
    simpa using h
  · rename_i h
    simpa using h

/-- The recogniser of numbers finds runs of digits and points. -/
theorem recognises_number : Recognises number? .number where
  cuts := by
    intro input found h
    simp only [number?, Option.map_eq_some_iff] at h
    obtain ⟨value, hvalue, rfl⟩ := h
    obtain ⟨hdigit, hpoints⟩ := ofRun?_isSome.1 (Option.isSome_of_eq_some hvalue)
    have hrun : ∀ c ∈ input.takeWhile Decimal.isNumeric, Decimal.isNumeric c = true :=
      List.all_eq_true.1 List.all_takeWhile
    have hspells : Spells .number (input.takeWhile Decimal.isNumeric)
        (input.dropWhile Decimal.isNumeric) (.number value) :=
      .number hrun hdigit hpoints (fun c hc => head?_dropWhile hc) hvalue
    -- the run has a digit, so it begins with a character, and that is no quote
    obtain ⟨digit, hmem, -⟩ := hdigit
    obtain ⟨first, tail, hcases⟩ := List.exists_cons_of_ne_nil (List.ne_nil_of_mem hmem)
    have hfirst : first ≠ '"' := by
      rintro rfl
      have hquote := hrun '"' (by rw [hcases]; exact List.mem_cons_self)
      rw [not_numeric_quote] at hquote
      cases hquote
    rw [hcases] at hspells
    have hcuts := cuts_of_spells hspells hfirst
    rwa [← hcases, List.takeWhile_append_dropWhile] at hcuts
  found := by
    rintro input ⟨run, behind, token, rfl, hspells⟩
    cases hspells with
    | number hrun hdigit hpoints hbehind hvalue =>
      rw [number?, takeWhile_append_eq hrun hbehind, hvalue]
      simp

/-- A newline or a bracket stands in front. -/
theorem single?_eq_some {first : Char} {rest : List Char} {found : Token × Nat}
    (h : single? (first :: rest) = some found) :
    (first = '\n' ∧ found = (.newline, 1)) ∨ ((first, found.1) ∈ brackets ∧ found.2 = 1) := by
  unfold single? at h
  -- a newline, the two parentheses and the two braces, or nothing
  split at h
  · rename_i heq
    cases heq
    cases h
    exact .inl ⟨rfl, rfl⟩
  · rename_i heq
    cases heq
    cases h
    exact .inr ⟨by decide, rfl⟩
  · rename_i heq
    cases heq
    cases h
    exact .inr ⟨by decide, rfl⟩
  · rename_i heq
    cases heq
    cases h
    exact .inr ⟨by decide, rfl⟩
  · rename_i heq
    cases heq
    cases h
    exact .inr ⟨by decide, rfl⟩
  · cases h

/-- A bracket is a token by itself. -/
theorem single?_bracket {c : Char} {token : Token} (hmem : (c, token) ∈ brackets)
    (rest : List Char) : single? (c :: rest) = some (token, 1) := by
  simp only [brackets, List.mem_cons, List.not_mem_nil, or_false, Prod.mk.injEq] at hmem
  rcases hmem with ⟨rfl, rfl⟩ | ⟨rfl, rfl⟩ | ⟨rfl, rfl⟩ | ⟨rfl, rfl⟩ <;> rfl

/-- A text that has the shape of a newline or a bracket is not passed over. -/
theorem single?_ne_none {input : List Char}
    (h : Shape.newline.Matches input ∨ Shape.bracket.Matches input) : single? input ≠ none := by
  rcases h with ⟨span, behind, token, rfl, hspells⟩ | ⟨span, behind, token, rfl, hspells⟩
  · cases hspells
    exact nofun
  · cases hspells with
    | bracket hmem =>
      rw [List.singleton_append, single?_bracket hmem]
      exact nofun

/-- A newline is no bracket. -/
theorem not_bracket_newline (token : Token) : ('\n', token) ∉ brackets := by
  simp [brackets]

/-- A quote is no bracket. -/
theorem not_bracket_quote (token : Token) : ('"', token) ∉ brackets := by
  simp [brackets]

/-- A newline is cut off where one stands. -/
theorem cuts_newline (rest : List Char) : Cuts .newline ('\n' :: rest) (.newline, 1) := by
  have hspells : Spells .newline ('\n' :: []) rest .newline := .newline
  exact cuts_of_spells hspells (by decide)

/-- A bracket is cut off where one stands, and there is no newline there. -/
theorem cuts_bracket {first : Char} {token : Token} (hmem : (first, token) ∈ brackets)
    (rest : List Char) :
    Cuts .bracket (first :: rest) (token, 1) ∧ ¬ Shape.newline.Matches (first :: rest) := by
  constructor
  · have hfirst : first ≠ '"' := by
      rintro rfl
      exact not_bracket_quote token hmem
    have hspells : Spells .bracket (first :: []) rest token := .bracket hmem
    exact cuts_of_spells hspells hfirst
  · rintro ⟨span, behind, other, heq, hspells⟩
    cases hspells
    obtain ⟨rfl, -⟩ := List.cons.inj heq
    exact not_bracket_newline token hmem

/-- The first in a list that begins a text is found if any does. -/
theorem find?_isPrefixOf_ne_none {α : Type} {all : List α} {spelling : α → List Char} {one : α}
    (hmem : one ∈ all) {input : List Char} (h : spelling one <+: input) :
    all.find? (fun other => (spelling other).isPrefixOf input) ≠ none := by
  intro hnone
  rw [List.find?_eq_none] at hnone
  exact hnone one hmem (List.isPrefixOf_iff_prefix.2 h)

/-- The recogniser of reserved words finds just these. -/
theorem recognises_keyword : Recognises keyword? .keyword where
  cuts := by
    intro input found h
    obtain ⟨word, rfl, behind, rfl⟩ := keyword?_eq_some h
    have hspells : Spells .keyword word.characters behind (.keyword word) := .keyword word
    obtain ⟨first, tail, hword, hfirst⟩ := Keyword.exists_characters word
    rw [hword] at hspells ⊢
    exact cuts_of_spells hspells hfirst
  found := by
    rintro input ⟨span, behind, token, rfl, hspells⟩
    cases hspells with
    | keyword word =>
      have hbegins : word.characters <+: word.characters ++ behind := List.prefix_append _ _
      rw [keyword?, Ne, Option.map_eq_none_iff]
      exact find?_isPrefixOf_ne_none (Keyword.mem_all word) hbegins

/-- No spelling that begins a text is longer than the one that is found. -/
theorem length_le_of_operator? {input : List Char} {op other : Operator}
    (h : Operator.all.find? (fun op => op.spelling.toList.isPrefixOf input) = some op)
    (hother : other.spelling.toList <+: input) : other.spelling.length ≤ op.spelling.length := by
  obtain ⟨-, before, behind, hall, hbefore⟩ := List.find?_eq_some_iff_append.1 h
  have hmem : other ∈ before ++ op :: behind := hall ▸ Operator.mem_all other
  -- the listing goes from long to short, so a longer spelling would have been found before
  rcases List.mem_append.1 hmem with hearlier | hlater
  · have hnot := hbefore other hearlier
    rw [List.isPrefixOf_iff_prefix.2 hother] at hnot
    cases hnot
  · have hpairwise := Operator.all_descending
    rw [hall] at hpairwise
    have hsorted := (List.pairwise_append.1 hpairwise).2.1
    rcases List.mem_cons.1 hlater with rfl | hbehind
    · exact Nat.le_refl _
    · exact (List.pairwise_cons.1 hsorted).1 other hbehind

/-- The recogniser of operators finds the longest spelling. -/
theorem recognises_operator : Recognises operator? .operator where
  cuts := by
    intro input found h
    simp only [operator?, Option.map_eq_some_iff] at h
    obtain ⟨op, hop, rfl⟩ := h
    have hbegins := List.find?_some hop
    obtain ⟨behind, rfl⟩ := List.isPrefixOf_iff_prefix.1 hbegins
    -- the operators are tried by length, so the one that is found is the longest
    have hspells : Spells .operator op.spelling.toList behind (.operator op) :=
      .operator fun other hother => length_le_of_operator? hop hother
    obtain ⟨first, tail, hop', hfirst⟩ := Operator.exists_spelling op
    rw [hop'] at hspells ⊢
    exact cuts_of_spells hspells hfirst
  found := by
    rintro input ⟨span, behind, token, rfl, hspells⟩
    cases hspells with
    | @operator op _ hlongest =>
      have hbegins : op.spelling.toList <+: op.spelling.toList ++ behind := List.prefix_append _ _
      rw [operator?, Ne, Option.map_eq_none_iff]
      exact find?_isPrefixOf_ne_none (Operator.mem_all op) hbegins

/-- The recogniser of strings finds what stands between quotes. -/
theorem recognises_text : Recognises text? .text where
  cuts := by
    intro input found h
    unfold text? at h
    split at h
    · rename_i rest
      cases h
      have hcontent := not_mem_takeWhile '"' rest
      have hsplit := List.takeWhile_append_dropWhile (p := (· != '"')) (l := rest)
      -- behind the content there is nothing, or the closing quote
      cases hrest : rest.dropWhile (· != '"') with
      | nil =>
        rw [hrest, List.append_nil] at hsplit
        rw [hsplit] at hcontent ⊢
        have hlength : ('"' :: rest).length ≤ rest.length + 2 := Nat.le_succ _
        constructor
        · rw [List.take_of_length_le hlength, List.drop_eq_nil_of_le hlength]
          exact .openText hcontent
        · exact .inr ⟨rfl, rest, rfl, hcontent, rfl⟩
      | cons c behind =>
        rw [hrest, eq_of_dropWhile hrest] at hsplit
        have hinput : '"' :: rest =
            ('"' :: (rest.takeWhile (· != '"') ++ ['"'])) ++ behind := by
          rw [List.cons_append, List.append_assoc, List.singleton_append, hsplit]
        have hspan : (rest.takeWhile (· != '"')).length + 2 =
            ('"' :: (rest.takeWhile (· != '"') ++ ['"'])).length := by
          rw [List.length_cons, List.length_append, List.length_singleton]
        constructor
        · rw [hspan, hinput, List.take_left, List.drop_left]
          exact .closedText hcontent
        · refine .inl ⟨?_, ?_⟩
          · rw [hspan, hinput, List.length_append]
            exact Nat.le_add_right _ _
          · rintro ⟨content, heq, hclosed, -⟩
            obtain ⟨-, rfl⟩ := List.cons.inj heq
            apply hclosed
            rw [← hsplit]
            exact List.mem_append_right _ List.mem_cons_self
    · cases h
  found := by
    rintro input ⟨span, behind, token, rfl, hspells⟩
    cases hspells with
    | closedText hcontent => exact nofun
    | openText hcontent => exact nofun

/-- What begins with no quote and is left over is cut off as a name. -/
theorem cuts_name {first : Char} (hfirst : first ≠ '"') (rest : List Char) :
    Cuts .name (first :: rest) (nameFrom first rest) := by
  have htail : ∀ c ∈ rest.takeWhile (! Text.isBlank ·), Text.isBlank c = false := by
    intro c hmem
    have hnot := List.all_eq_true.1 List.all_takeWhile c hmem
    simpa using hnot
  have hbehind : ∀ c, (rest.dropWhile (! Text.isBlank ·)).head? = some c →
      Text.isBlank c = true := by
    intro c hc
    have hnot := head?_dropWhile (p := (! Text.isBlank ·)) hc
    simpa using hnot
  -- a name goes on up to the next blank
  have hspells : Spells .name (first :: rest.takeWhile (! Text.isBlank ·))
      (rest.dropWhile (! Text.isBlank ·)) (nameFrom first rest).1 := .name htail hbehind
  have hcuts := cuts_of_spells hspells hfirst
  rw [List.cons_append, List.takeWhile_append_dropWhile] at hcuts
  exact hcuts

/-! ## The token at the front -/

/-- **The first shape that matches makes the token.** What is cut off at the front of a text has a
shape, and the text has none of the shapes at its front that are tried before. -/
theorem front_cuts (first : Char) (rest : List Char) :
    ∃ shape, Cuts shape (first :: rest) (front first rest) ∧
      ∀ other ∈ shape.earlier, ¬ other.Matches (first :: rest) := by
  simp only [front, shapes, List.findSome?_cons, List.findSome?_nil]
  -- a recogniser that finds nothing excludes its shape, and the next one is tried
  cases hnumber : number? (first :: rest) with
  | some found =>
    exact ⟨.number, recognises_number.cuts hnumber, by simp [Shape.earlier, Shape.order]⟩
  | none =>
    have hnoNumber := recognises_number.not_matches hnumber
    cases hsingle : single? (first :: rest) with
    | some found =>
      rcases single?_eq_some hsingle with ⟨rfl, rfl⟩ | ⟨hmem, hone⟩
      · exact ⟨.newline, cuts_newline rest, by simpa [Shape.earlier, Shape.order] using hnoNumber⟩
      · obtain ⟨token, taken⟩ := found
        obtain rfl : taken = 1 := hone
        obtain ⟨hcuts, hnoNewline⟩ := cuts_bracket hmem rest
        exact ⟨.bracket, hcuts, by simpa [Shape.earlier, Shape.order] using ⟨hnoNumber, hnoNewline⟩⟩
    | none =>
      have hnoNewline : ¬ Shape.newline.Matches (first :: rest) :=
        fun h => single?_ne_none (.inl h) hsingle
      have hnoBracket : ¬ Shape.bracket.Matches (first :: rest) :=
        fun h => single?_ne_none (.inr h) hsingle
      cases hkeyword : keyword? (first :: rest) with
      | some found =>
        refine ⟨.keyword, recognises_keyword.cuts hkeyword, ?_⟩
        simpa [Shape.earlier, Shape.order] using ⟨hnoNumber, hnoNewline, hnoBracket⟩
      | none =>
        have hnoKeyword := recognises_keyword.not_matches hkeyword
        cases hoperator : operator? (first :: rest) with
        | some found =>
          refine ⟨.operator, recognises_operator.cuts hoperator, ?_⟩
          simpa [Shape.earlier, Shape.order] using ⟨hnoNumber, hnoNewline, hnoBracket, hnoKeyword⟩
        | none =>
          have hnoOperator := recognises_operator.not_matches hoperator
          cases htext : text? (first :: rest) with
          | some found =>
            refine ⟨.text, recognises_text.cuts htext, ?_⟩
            simpa [Shape.earlier, Shape.order] using
              ⟨hnoNumber, hnoNewline, hnoBracket, hnoKeyword, hnoOperator⟩
          | none =>
            have hnoText := recognises_text.not_matches htext
            -- names may begin with anything that is left, and a quote is not left
            have hfirst : first ≠ '"' := by
              rintro rfl
              cases htext
            refine ⟨.name, cuts_name hfirst rest, ?_⟩
            simpa [Shape.earlier, Shape.order] using
              ⟨hnoNumber, hnoNewline, hnoBracket, hnoKeyword, hnoOperator, hnoText⟩

end Token

end Scriptlet
