import Scriptlet.Token.Scan

/-! # Scanning a text in parts

Where the lexemes of a text stand, and how the scan of a text that is put together from two parts
follows from the scans of the parts. A text that ends with a newline can be continued without any
change to its own lexemes: no shape but a string reaches over a newline, and a string that is closed
does not reach on either. The lexemes of the second part are then those it has by itself, moved on
by the characters and the lines of the first. -/

namespace Scriptlet

/-! ## Cursors -/

namespace Cursor

/-- A place as seen from the beginning of a longer text, in which some characters and lines come
first. -/
def shift (characters lines : Nat) (cursor : Cursor) : Cursor :=
  ⟨cursor.offset + characters, cursor.line + lines, cursor.lineStart + characters⟩

/-- Characters in front move an offset on. -/
@[simp] theorem offset_shift (characters lines : Nat) (cursor : Cursor) :
    (cursor.shift characters lines).offset = cursor.offset + characters := rfl

/-- Lines in front move a line number on. -/
@[simp] theorem line_shift (characters lines : Nat) (cursor : Cursor) :
    (cursor.shift characters lines).line = cursor.line + lines := rfl

/-- Columns do not depend on what comes before the line. -/
@[simp] theorem column_shift (characters lines : Nat) (cursor : Cursor) :
    (cursor.shift characters lines).column = cursor.column := by
  simp only [column, shift]
  omega

/-- A step moves the offset on by one. -/
@[simp] theorem offset_step (cursor : Cursor) (c : Char) :
    (cursor.step c).offset = cursor.offset + 1 := by
  unfold step
  split <;> rfl

/-- A step is the same in a longer text. -/
@[simp] theorem step_shift (characters lines : Nat) (cursor : Cursor) (c : Char) :
    (cursor.shift characters lines).step c = (cursor.step c).shift characters lines := by
  unfold step
  split
  · simp only [shift, Cursor.mk.injEq]
    omega
  · simp only [shift, Cursor.mk.injEq, and_self, and_true]
    omega

/-- To pass nothing is to stay. -/
@[simp] theorem advance_nil (cursor : Cursor) : cursor.advance [] = cursor := rfl

/-- To pass characters is to step over the first and to pass the others. -/
@[simp] theorem advance_cons (cursor : Cursor) (c : Char) (rest : List Char) :
    cursor.advance (c :: rest) = (cursor.step c).advance rest := rfl

/-- Two texts are passed one after the other. -/
theorem advance_append (cursor : Cursor) (before behind : List Char) :
    cursor.advance (before ++ behind) = (cursor.advance before).advance behind := by
  simp only [advance, List.foldl_append]

/-- To pass characters moves the offset on by their number. -/
@[simp] theorem offset_advance (cursor : Cursor) (characters : List Char) :
    (cursor.advance characters).offset = cursor.offset + characters.length := by
  induction characters generalizing cursor with
  | nil => rfl
  | cons c rest ih =>
    rw [advance_cons, ih, offset_step, List.length_cons]
    omega

/-- Every newline begins a new line. -/
@[simp] theorem line_advance (cursor : Cursor) (characters : List Char) :
    (cursor.advance characters).line = cursor.line + characters.count '\n' := by
  induction characters generalizing cursor with
  | nil => rfl
  | cons c rest ih =>
    rw [advance_cons, ih, List.count_cons]
    by_cases h : c = '\n'
    · simp only [step, h, if_true, beq_self_eq_true]
      omega
    · simp only [step, h, if_false, beq_iff_eq]
      omega

/-- Characters are passed alike in a longer text. -/
@[simp] theorem advance_shift (lines offset : Nat) (cursor : Cursor) (characters : List Char) :
    (cursor.shift offset lines).advance characters =
      (cursor.advance characters).shift offset lines := by
  induction characters generalizing cursor with
  | nil => rfl
  | cons c rest ih => rw [advance_cons, step_shift, ih, advance_cons]

end Cursor

/-- A lexeme as seen from the beginning of a longer text. -/
def Lexeme.shift (characters lines : Nat) (lexeme : Lexeme) : Lexeme :=
  ⟨lexeme.token, lexeme.start.shift characters lines, lexeme.stop.shift characters lines⟩

namespace Token

/-! ## The steps of a scan -/

/-- The scan of nothing ends where it begins. -/
theorem scanFrom_nil (cursor : Cursor) : scanFrom cursor [] = ([], cursor) := by
  rw [scanFrom]

/-- A gap in front is stepped over. -/
theorem scanFrom_gap {cursor : Cursor} {first : Char} {rest : List Char} (h : isGap first = true) :
    scanFrom cursor (first :: rest) = scanFrom (cursor.step first) rest := by
  rw [scanFrom, if_pos h]

/-- What is no gap in front is cut off as a token, and the scan goes on behind it. -/
theorem scanFrom_token {cursor : Cursor} {first : Char} {rest : List Char}
    (h : ¬ isGap first = true) :
    scanFrom cursor (first :: rest) =
      let stop := stopAfter cursor (first :: rest) (front first rest).2
      let others := scanFrom stop ((first :: rest).drop (front first rest).2)
      (⟨(front first rest).1, cursor, stop⟩ :: others.1, others.2) := by
  rw [scanFrom, if_neg h]

/-- Induction along a scan: over the gap or the token in front. -/
theorem scanFrom_induction {motive : Cursor → List Char → Prop}
    (nil : ∀ cursor, motive cursor [])
    (gap : ∀ cursor first rest, isGap first = true → motive (cursor.step first) rest →
      motive cursor (first :: rest))
    (token : ∀ cursor first rest, ¬ isGap first = true →
      motive (stopAfter cursor (first :: rest) (front first rest).2)
        ((first :: rest).drop (front first rest).2) →
      motive cursor (first :: rest))
    (cursor : Cursor) (input : List Char) : motive cursor input :=
  scanFrom.induct motive nil gap token cursor input

/-- Behind a token the offset has grown by the characters taken. -/
@[simp] theorem offset_stopAfter (cursor : Cursor) (input : List Char) (taken : Nat) :
    (stopAfter cursor input taken).offset = cursor.offset + taken := rfl

/-- A token that ends inside the text stops where its characters do. -/
theorem stopAfter_eq_advance {cursor : Cursor} {input : List Char} {taken : Nat}
    (h : taken ≤ input.length) : stopAfter cursor input taken = cursor.advance (input.take taken) := by
  have hoffset : (cursor.advance (input.take taken)).offset = cursor.offset + taken := by
    rw [Cursor.offset_advance, List.length_take, Nat.min_eq_left h]
  rw [stopAfter, ← hoffset]

/-- Every lexeme begins inside the text it was cut from. -/
theorem start_of_mem_scanFrom {cursor : Cursor} {input : List Char} {lexeme : Lexeme}
    (h : lexeme ∈ (scanFrom cursor input).1) :
    cursor.offset ≤ lexeme.start.offset ∧ lexeme.start.offset < cursor.offset + input.length := by
  induction cursor, input using scanFrom_induction with
  | nil cursor =>
    rw [scanFrom_nil] at h
    cases h
  | gap cursor first rest hgap ih =>
    rw [scanFrom_gap hgap] at h
    obtain ⟨hlow, hhigh⟩ := ih h
    rw [Cursor.offset_step] at hlow hhigh
    rw [List.length_cons]
    omega
  | token cursor first rest hgap ih =>
    rw [scanFrom_token hgap] at h
    rcases List.mem_cons.1 h with rfl | hothers
    · simp
    · obtain ⟨hlow, hhigh⟩ := ih hothers
      rw [offset_stopAfter] at hlow hhigh
      rw [List.length_drop] at hhigh
      -- behind a string that is never closed nothing is left, so `hlow` and `hhigh` exclude it
      omega

/-- A scan ends at the end of its text or behind it. -/
theorem le_offset_scanFrom (cursor : Cursor) (input : List Char) :
    cursor.offset + input.length ≤ (scanFrom cursor input).2.offset := by
  induction cursor, input using scanFrom_induction with
  | nil cursor => simp [scanFrom_nil]
  | gap cursor first rest hgap ih =>
    rw [scanFrom_gap hgap]
    rw [Cursor.offset_step] at ih
    rw [List.length_cons]
    omega
  | token cursor first rest hgap ih =>
    rw [scanFrom_token hgap]
    rw [offset_stopAfter, List.length_drop] at ih
    dsimp only
    omega

/-- The scan of a text ends at its end. Only a string that is never closed makes a scan end
elsewhere, one place behind the text. -/
def IsClosed (cursor : Cursor) (input : List Char) : Prop :=
  (scanFrom cursor input).2.offset = cursor.offset + input.length

/-- Behind a gap a scan ends where it ended with the gap. -/
theorem IsClosed.of_gap {cursor : Cursor} {first : Char} {rest : List Char}
    (h : IsClosed cursor (first :: rest)) (hgap : isGap first = true) :
    IsClosed (cursor.step first) rest := by
  rw [IsClosed, scanFrom_gap hgap, List.length_cons] at h
  rw [IsClosed, h, Cursor.offset_step]
  omega

/-- In a text whose scan ends at its end, the first token ends inside the text, and so does the scan
of what is behind it. -/
theorem IsClosed.of_token {cursor : Cursor} {first : Char} {rest : List Char}
    (h : IsClosed cursor (first :: rest)) (hgap : ¬ isGap first = true) :
    (front first rest).2 ≤ (first :: rest).length ∧
      IsClosed (stopAfter cursor (first :: rest) (front first rest).2)
        ((first :: rest).drop (front first rest).2) := by
  rw [IsClosed, scanFrom_token hgap] at h
  dsimp only at h
  -- a token that took more than is left would put the end of the scan behind the input
  have hbehind := le_offset_scanFrom (stopAfter cursor (first :: rest) (front first rest).2)
    ((first :: rest).drop (front first rest).2)
  rw [offset_stopAfter, List.length_drop] at hbehind
  have hinside : (front first rest).2 ≤ (first :: rest).length := by omega
  refine ⟨hinside, ?_⟩
  rw [IsClosed, h, offset_stopAfter, List.length_drop]
  omega

/-- A text that stands further on has the same lexemes, further on. -/
theorem scanFrom_shift (characters lines : Nat) (cursor : Cursor) (input : List Char) :
    scanFrom (cursor.shift characters lines) input =
      ((scanFrom cursor input).1.map (Lexeme.shift characters lines),
        (scanFrom cursor input).2.shift characters lines) := by
  induction cursor, input using scanFrom_induction with
  | nil cursor => simp [scanFrom_nil]
  | gap cursor first rest hgap ih => rw [scanFrom_gap hgap, scanFrom_gap hgap, Cursor.step_shift, ih]
  | token cursor first rest hgap ih =>
    -- where a token ends is seen from its own start
    have hstop (taken : Nat) : stopAfter (cursor.shift characters lines) (first :: rest) taken =
        (stopAfter cursor (first :: rest) taken).shift characters lines := by
      simp only [stopAfter, Cursor.advance_shift]
      simp only [Cursor.shift, Cursor.mk.injEq, and_self, and_true]
      omega
    rw [scanFrom_token hgap, scanFrom_token hgap]
    dsimp only
    rw [hstop, ih]
    rfl

/-! ## Texts that end with a newline -/

/-- A text is empty or ends with a newline. -/
def EndsLine (input : List Char) : Prop :=
  ∀ last, input.getLast? = some last → last = '\n'

/-- What is left of a text ends like the whole. -/
theorem EndsLine.of_append {before behind : List Char} (h : EndsLine (before ++ behind)) :
    EndsLine behind := by
  intro last hlast
  apply h
  rw [List.getLast?_append, hlast, Option.some_or]

/-- The rest of a text ends like the whole. -/
theorem EndsLine.tail {first : Char} {rest : List Char} (h : EndsLine (first :: rest)) :
    EndsLine rest := by
  rw [← List.singleton_append] at h
  exact h.of_append

/-- What is behind the first characters ends like the whole. -/
theorem EndsLine.drop {input : List Char} (h : EndsLine input) (taken : Nat) :
    EndsLine (input.drop taken) := by
  rw [← List.take_append_drop taken input] at h
  exact h.of_append

/-- A text that ends with a newline and is not empty holds one. -/
theorem EndsLine.newline_mem {first : Char} {rest : List Char} (h : EndsLine (first :: rest)) :
    '\n' ∈ first :: rest := by
  have hlast : (first :: rest).getLast? = some '\n' := by
    cases hlast : (first :: rest).getLast? with
    | none => simp at hlast
    | some last => rw [h last hlast]
  exact List.mem_of_getLast? hlast

/-- The line of a place behind a newline begins there. -/
theorem EndsLine.lineStart_advance {input : List Char} (h : EndsLine input) (cursor : Cursor)
    (hstart : cursor.lineStart = cursor.offset) :
    (cursor.advance input).lineStart = (cursor.advance input).offset := by
  rcases List.eq_nil_or_concat input with rfl | ⟨front, last, rfl⟩
  · exact hstart
  · obtain rfl := h last (by simp)
    rw [List.concat_eq_append, Cursor.advance_append]
    simp [Cursor.step]

/-! ### What the shapes see of a text -/

/-- A run that some character of a text stops is shorter than the text. -/
theorem length_takeWhile_lt {p : Char → Bool} {input : List Char} {stop : Char}
    (hmem : stop ∈ input) (hstop : p stop = false) :
    (input.takeWhile p).length < input.length := by
  have hbegins : input.takeWhile p <+: input := List.takeWhile_prefix p
  have hevery := List.all_takeWhile (p := p) (l := input)
  rw [List.all_eq_true] at hevery
  -- a run over the whole text would hold the character that stops it
  have hne : (input.takeWhile p).length ≠ input.length := by
    intro hlength
    rw [hbegins.eq_of_length hlength] at hevery
    rw [hevery stop hmem] at hstop
    cases hstop
  exact Nat.lt_of_le_of_ne hbegins.length_le hne

/-- A run that stops inside a text does not see what is behind the text. -/
theorem takeWhile_append_of_mem {p : Char → Bool} {input : List Char} {stop : Char}
    (hmem : stop ∈ input) (hstop : p stop = false) (behind : List Char) :
    (input ++ behind).takeWhile p = input.takeWhile p := by
  have hlt := length_takeWhile_lt hmem hstop
  rw [List.takeWhile_append, if_neg (Nat.ne_of_lt hlt)]

/-- A spelling without a newline that begins a text with one is complete before the end of the
text. -/
theorem prefix_append_iff {spelling input : List Char} (hspelling : '\n' ∉ spelling)
    (hinput : '\n' ∈ input) (behind : List Char) :
    spelling <+: input ++ behind ↔ spelling <+: input := by
  constructor
  · intro h
    rcases List.prefix_or_prefix_of_prefix h (List.prefix_append input behind) with hshort | hlong
    · exact hshort
    · exact absurd (hlong.subset hinput) hspelling
  · intro h
    exact h.trans (List.prefix_append input behind)

/-- No reserved word holds a newline. -/
theorem newline_not_mem_characters (word : Keyword) : '\n' ∉ word.characters := by
  cases word <;> decide

/-- No operator is spelled with a newline. -/
theorem newline_not_mem_spelling (op : Operator) : '\n' ∉ op.spelling.toList := by
  cases op <;> decide

section Append

variable {input : List Char} (hnewline : '\n' ∈ input) (behind : List Char)
include hnewline

/-- A number ends before a newline, so what is behind it does not matter. -/
theorem number?_append : number? (input ++ behind) = number? input := by
  simp only [number?, takeWhile_append_of_mem hnewline (by decide : Decimal.isNumeric '\n' = false)]

/-- A spelling without a newline is not completed behind one. -/
theorem isPrefixOf_append {spelling : List Char} (hspelling : '\n' ∉ spelling) :
    spelling.isPrefixOf (input ++ behind) = spelling.isPrefixOf input := by
  rw [Bool.eq_iff_iff, List.isPrefixOf_iff_prefix, List.isPrefixOf_iff_prefix,
    prefix_append_iff hspelling hnewline]

/-- A reserved word ends before a newline, so what is behind it does not matter. -/
theorem keyword?_append : keyword? (input ++ behind) = keyword? input := by
  simp only [keyword?, isPrefixOf_append hnewline behind (newline_not_mem_characters _)]

/-- An operator ends before a newline, so what is behind it does not matter. -/
theorem operator?_append : operator? (input ++ behind) = operator? input := by
  simp only [operator?, isPrefixOf_append hnewline behind (newline_not_mem_spelling _)]

end Append

/-- A newline or bracket is found by the first character alone. -/
theorem single?_cons (first : Char) (rest rest' : List Char) :
    single? (first :: rest) = single? (first :: rest') := by
  unfold single?
  split <;> simp_all

/-- A string begins with a quote. -/
theorem text?_of_ne_quote {first : Char} (h : first ≠ '"') (rest : List Char) :
    text? (first :: rest) = none := by
  unfold text?
  split
  · rename_i heq
    cases heq
    exact absurd rfl h
  · rfl

/-- A newline is a token of its own. -/
theorem front_newline (rest : List Char) : front '\n' rest = (.newline, 1) := by
  rfl

/-- Behind a quote everything up to the next one is a string, or everything that is left. -/
theorem front_quote (rest : List Char) :
    front '"' rest =
      (.text (String.ofList (rest.takeWhile (· != '"'))),
        (rest.takeWhile (· != '"')).length + 2) := by
  rfl

/-- A token that ends inside a text, which itself ends with a newline, does not change when the text
goes on. -/
theorem front_append {first : Char} {rest : List Char} (hends : EndsLine (first :: rest))
    (hinside : (front first rest).2 ≤ (first :: rest).length) (behind : List Char) :
    front first (rest ++ behind) = front first rest := by
  by_cases hquote : first = '"'
  · -- the closing quote is inside the text: otherwise the string would reach behind its end
    subst hquote
    rw [front_quote, List.length_cons] at hinside
    rw [front_quote, front_quote, List.takeWhile_append, if_neg (by dsimp only at hinside; omega)]
  · by_cases hfirst : first = '\n'
    · subst hfirst
      rw [front_newline, front_newline]
    -- every other shape stops at the newline at the latest
    · have hnewline := hends.newline_mem
      have hrest : '\n' ∈ rest := by simpa [Ne.symm hfirst] using hnewline
      have hsingle := single?_cons first (rest ++ behind) rest
      have hnumber := number?_append hnewline behind
      have hkeyword := keyword?_append hnewline behind
      have hoperator := operator?_append hnewline behind
      have htext (others : List Char) := text?_of_ne_quote hquote others
      rw [List.cons_append] at hnumber hkeyword hoperator
      have hname : nameFrom first (rest ++ behind) = nameFrom first rest := by
        have hblank : (!Text.isBlank '\n') = false := by decide
        rw [nameFrom, nameFrom, takeWhile_append_of_mem (p := (!Text.isBlank ·)) hrest hblank]
      simp only [front, shapes, List.findSome?_cons, List.findSome?_nil, hnumber, hsingle, hkeyword,
        hoperator, htext, hname]

/-- The first part of a text has the lexemes it has by itself, if it ends with a newline and outside
of strings. -/
theorem scanFrom_append {cursor : Cursor} {input : List Char} (hends : EndsLine input)
    (hclosed : IsClosed cursor input) (behind : List Char) :
    scanFrom cursor (input ++ behind) =
      ((scanFrom cursor input).1 ++ (scanFrom (cursor.advance input) behind).1,
        (scanFrom (cursor.advance input) behind).2) := by
  induction cursor, input using scanFrom_induction with
  | nil cursor => rw [scanFrom_nil]; rfl
  | gap cursor first rest hgap ih =>
    rw [List.cons_append, scanFrom_gap hgap, scanFrom_gap hgap, Cursor.advance_cons]
    exact ih hends.tail (hclosed.of_gap hgap)
  | token cursor first rest hgap ih =>
    obtain ⟨hinside, hbehind⟩ := hclosed.of_token hgap
    have hfront := front_append hends hinside behind
    have hstop (taken : Nat) (h : taken ≤ (first :: rest).length) :
        stopAfter cursor (first :: rest ++ behind) taken = stopAfter cursor (first :: rest) taken := by
      rw [stopAfter, stopAfter, List.take_append_of_le_length h]
    -- the scan of the rest goes on where this token stops, and ends where the whole text does
    have hadvance : (stopAfter cursor (first :: rest) (front first rest).2).advance
        ((first :: rest).drop (front first rest).2) = cursor.advance (first :: rest) := by
      rw [stopAfter_eq_advance hinside, ← Cursor.advance_append, List.take_append_drop]
    rw [scanFrom_token hgap, List.cons_append, scanFrom_token hgap, hfront, ← List.cons_append,
      hstop _ hinside, List.drop_append_of_le_length hinside]
    dsimp only
    rw [ih (hends.drop _) hbehind, hadvance]
    rfl

/-- A reserved word stands in front, whole. -/
theorem keyword?_eq_some {input : List Char} {found : Token × Nat}
    (h : keyword? input = some found) :
    ∃ word, found = (.keyword word, word.characters.length) ∧ word.characters <+: input := by
  simp only [keyword?, Option.map_eq_some_iff] at h
  obtain ⟨word, hword, rfl⟩ := h
  have hbegins := List.find?_some hword
  exact ⟨word, rfl, List.isPrefixOf_iff_prefix.1 hbegins⟩

/-- An operator stands in front, whole. -/
theorem operator?_eq_some {input : List Char} {found : Token × Nat}
    (h : operator? input = some found) :
    ∃ op, found = (.operator op, op.spelling.toList.length) ∧ op.spelling.toList <+: input := by
  simp only [operator?, Option.map_eq_some_iff] at h
  obtain ⟨op, hop, rfl⟩ := h
  have hbegins := List.find?_some hop
  exact ⟨op, rfl, List.isPrefixOf_iff_prefix.1 hbegins⟩

/-- No closed string ends a text that ends with a newline: its last character is a quote. -/
theorem EndsLine.length_content_ne {rest : List Char} (h : EndsLine rest) :
    (rest.takeWhile (· != '"')).length + 1 ≠ rest.length := by
  rcases List.eq_nil_or_concat rest with rfl | ⟨front, last, rfl⟩
  · simp
  · obtain rfl := h last (by simp)
    have hfront : (front.takeWhile (· != '"')).length ≤ front.length :=
      (List.takeWhile_prefix _).length_le
    rw [List.concat_eq_append, List.takeWhile_append]
    split
    · simp
    · simp only [List.length_append, List.length_singleton]
      omega

/-- The token in front comes from one of the shapes, or else it is a name. -/
theorem front_cases (first : Char) (rest : List Char) :
    (∃ shape ∈ shapes, shape (first :: rest) = some (front first rest)) ∨
      front first rest = nameFrom first rest := by
  unfold front
  cases hfound : shapes.findSome? fun shape => shape (first :: rest) with
  | none => exact .inr rfl
  | some found => exact .inl (List.exists_of_findSome?_eq_some hfound)

/-- No shape that begins with another character takes a whole text which ends with a newline: it
would have to hold that newline, or to end with it as a string does with a quote. -/
theorem length_ne_of_shape {first : Char} {rest : List Char} (hends : EndsLine (first :: rest))
    (hrest : '\n' ∈ rest) {shape : List Char → Option (Token × Nat)} (hshape : shape ∈ shapes)
    {found : Token × Nat} (hfound : shape (first :: rest) = some found) :
    found.2 ≠ (first :: rest).length := by
  intro hall
  have hnewline := hends.newline_mem
  simp only [shapes, List.mem_cons, List.not_mem_nil, or_false] at hshape
  -- no token but a string goes over a newline, and a string here would have to end with one
  rcases hshape with rfl | rfl | rfl | rfl | rfl
  · simp only [number?, Option.map_eq_some_iff] at hfound
    obtain ⟨value, -, hvalue⟩ := hfound
    have hlt := length_takeWhile_lt (p := Decimal.isNumeric) hnewline (by decide)
    rw [← hvalue] at hall
    omega
  · rw [single?_eq_one hfound, List.length_cons] at hall
    have hpos := List.length_pos_of_mem hrest
    omega
  · obtain ⟨word, hvalue, hbegins⟩ := keyword?_eq_some hfound
    rw [hvalue] at hall
    rw [← hbegins.eq_of_length hall] at hnewline
    exact newline_not_mem_characters word hnewline
  · obtain ⟨op, hvalue, hbegins⟩ := operator?_eq_some hfound
    rw [hvalue] at hall
    rw [← hbegins.eq_of_length hall] at hnewline
    exact newline_not_mem_spelling op hnewline
  · by_cases hquote : first = '"'
    · subst hquote
      cases hfound
      rw [List.length_cons] at hall
      exact hends.tail.length_content_ne (by dsimp only at hall; omega)
    · rw [text?_of_ne_quote hquote] at hfound
      cases hfound

/-- A token that takes a whole text which ends with a newline is that newline. -/
theorem front_eq_newline {first : Char} {rest : List Char} (hends : EndsLine (first :: rest))
    (hall : (front first rest).2 = (first :: rest).length) : (front first rest).1 = .newline := by
  by_cases hfirst : first = '\n'
  · subst hfirst
    rw [front_newline]
  · exfalso
    have hrest : '\n' ∈ rest := by simpa [Ne.symm hfirst] using hends.newline_mem
    rcases front_cases first rest with ⟨shape, hshape, hfound⟩ | hname
    · exact length_ne_of_shape hends hrest hshape hfound hall
    -- a name stops in front of the newline
    · rw [hname, nameFrom, List.length_cons] at hall
      have hlt := length_takeWhile_lt (p := (!Text.isBlank ·)) hrest (by decide)
      dsimp only at hall
      omega

/-- A text that ends with a newline does not end with a gap. -/
theorem EndsLine.ne_nil_of_gap {first : Char} {rest : List Char} (h : EndsLine (first :: rest))
    (hgap : isGap first = true) : rest ≠ [] := by
  rintro rfl
  rw [h first rfl] at hgap
  cases hgap

/-- The lexemes of a text that ends with a newline, outside of strings, end with that newline. -/
theorem exists_last_newline {cursor : Cursor} {input : List Char} (hinput : input ≠ [])
    (hends : EndsLine input) (hclosed : IsClosed cursor input) :
    ∃ last, (scanFrom cursor input).1.getLast? = some last ∧ last.token = .newline := by
  induction cursor, input using scanFrom_induction with
  | nil cursor => exact absurd rfl hinput
  | gap cursor first rest hgap ih =>
    rw [scanFrom_gap hgap]
    exact ih (hends.ne_nil_of_gap hgap) hends.tail (hclosed.of_gap hgap)
  | token cursor first rest hgap ih =>
    obtain ⟨hinside, hbehind⟩ := hclosed.of_token hgap
    rw [scanFrom_token hgap]
    dsimp only
    -- either this token is the last one and takes the final newline, or the last one is further on
    by_cases hdrop : (first :: rest).drop (front first rest).2 = []
    · have hall : (front first rest).2 = (first :: rest).length :=
        Nat.le_antisymm hinside (List.drop_eq_nil_iff.1 hdrop)
      rw [hdrop, scanFrom_nil]
      exact ⟨_, rfl, front_eq_newline hends hall⟩
    · obtain ⟨last, hlast, htoken⟩ := ih hdrop (hends.drop _) hbehind
      refine ⟨last, ?_, htoken⟩
      rw [List.getLast?_cons, hlast, Option.getD_some]

/-! ## Whole texts -/

/-- A source is closed if its scan ends where it ends. -/
theorem isClosed_of_scan {source : String} (h : (scan source).2.offset = source.length) :
    IsClosed {} source.toList := by
  rw [IsClosed, String.length_toList, Nat.zero_add]
  exact h

/-- The last lexeme of a text that ends with a newline, outside of strings, is that newline. -/
theorem last_eq_newline {source : String} (hends : EndsLine source.toList)
    (hclosed : (scan source).2.offset = source.length) {last : Lexeme}
    (hlast : (lexemes source).getLast? = some last) : last.token = .newline := by
  have hne : source.toList ≠ [] := by
    intro hempty
    rw [lexemes, scan, hempty, scanFrom_nil] at hlast
    cases hlast
  obtain ⟨last', hlast', htoken⟩ := exists_last_newline hne hends (isClosed_of_scan hclosed)
  rw [lexemes, scan, hlast'] at hlast
  cases hlast
  exact htoken

/-- **Texts put together.** The lexemes of a text behind one that ends with a newline, outside of
strings, are the lexemes of the first and then those of the second, moved on by the characters and
the lines of the first. -/
theorem lexemes_append {source : String} (hends : EndsLine source.toList)
    (hclosed : (scan source).2.offset = source.length) (next : String) :
    lexemes (source ++ next) =
      lexemes source ++
        (lexemes next).map (Lexeme.shift source.length (source.toList.count '\n')) := by
  -- the second text begins on a line of its own, so its columns are those it has by itself
  have hadvance : Cursor.advance {} source.toList =
      Cursor.shift source.length (source.toList.count '\n') {} := by
    have hoffset := Cursor.offset_advance {} source.toList
    have hline := Cursor.line_advance {} source.toList
    have hlineStart := hends.lineStart_advance {} rfl
    rw [String.length_toList] at hoffset
    rw [hoffset] at hlineStart
    cases hend : Cursor.advance {} source.toList with
    | mk offset line lineStart =>
      rw [hend] at hoffset hline hlineStart
      simp only [Cursor.shift, Cursor.mk.injEq]
      exact ⟨hoffset, hline, hlineStart⟩
  rw [lexemes, scan, String.toList_append, scanFrom_append hends (isClosed_of_scan hclosed),
    hadvance, scanFrom_shift]
  rfl

/-- Every lexeme of a text begins inside it. -/
theorem start_lt_of_mem_lexemes {source : String} {lexeme : Lexeme} (h : lexeme ∈ lexemes source) :
    lexeme.start.offset < source.length := by
  have hstart := (start_of_mem_scanFrom h).2
  rw [String.length_toList, Nat.zero_add] at hstart
  exact hstart

end Token

end Scriptlet
