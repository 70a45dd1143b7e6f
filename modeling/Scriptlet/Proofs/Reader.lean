import Mathlib
import Scriptlet.Proofs.Shapes
import Scriptlet.Text.Lines

/-! # Reading one lexeme at a time

A reader keeps the place it has come to and the characters it has not read yet. Each call gives the
next lexeme, if there is one. Lines are counted only where a newline is read, as a token of its own
or inside a string; no other token holds one.

* `Cursor.IsAt source cursor`: the line and the start of the line are those of the offset.
* `Reader.IsAt.next` and `Reader.IsAt.after`: one call keeps the place right, and so do many.
* `Reader.next_after` and `Reader.cursor_after`: the calls give the lexemes of the text, in order.
* `reader_positions`: the places of a reader and of all lexemes are right. -/

namespace Scriptlet

/-! ## Lines -/

namespace Text

/-- The last line of a text begins at an offset: behind its last newline, or at its beginning. -/
structure IsLineStart (text : List Char) (start : Nat) : Prop where
  le_length : start ≤ text.length
  newline_not_mem : '\n' ∉ text.drop start
  newline_before : start = 0 ∨ text[start - 1]? = some '\n'

/-- The offset at which the last line of a text begins. -/
def lastLineStart (text : List Char) : Nat :=
  text.length - (text.reverse.takeWhile (· != '\n')).length

/-- The offset of a line and a column, both counted from one: the lengths of the lines before, with
their newlines, and the columns before. -/
def offsetAt (text : List Char) (line column : Nat) : Nat :=
  (((splitNewlines text).take (line - 1)).map (·.length + 1)).sum + (column - 1)

section IsLineStart

variable {text before span : List Char} {start start' : Nat}

/-- A text without characters has its only line at its beginning. -/
theorem isLineStart_nil : IsLineStart [] 0 :=
  ⟨Nat.le_refl _, List.not_mem_nil, .inl rfl⟩

/-- The last line begins behind a newline with no other behind it. -/
theorem isLineStart_append (front : List Char) (hspan : '\n' ∉ span) :
    IsLineStart (front ++ '\n' :: span) (front.length + 1) where
  le_length := by
    rw [List.length_append, List.length_cons]
    omega
  newline_not_mem := by
    rw [List.append_cons, List.drop_left' (by simp)]
    exact hspan
  newline_before := by
    right
    rw [Nat.add_sub_cancel, List.getElem?_append_right (Nat.le_refl _), Nat.sub_self]
    rfl

/-- Without a newline the first line is the last. -/
theorem isLineStart_zero (h : '\n' ∉ text) : IsLineStart text 0 :=
  ⟨Nat.zero_le _, h, .inl rfl⟩

/-- A text splits where its last line begins. -/
theorem IsLineStart.cases (h : IsLineStart text start) :
    (start = 0 ∧ '\n' ∉ text) ∨
      ∃ front span, text = front ++ '\n' :: span ∧ '\n' ∉ span ∧ start = front.length + 1 := by
  rcases h.newline_before with rfl | hbefore
  · exact .inl ⟨rfl, h.newline_not_mem⟩
  · cases start with
    | zero => exact .inl ⟨rfl, h.newline_not_mem⟩
    | succ start =>
      rw [Nat.add_sub_cancel] at hbefore
      obtain ⟨hlt, hget⟩ := List.getElem?_eq_some_iff.1 hbefore
      refine .inr ⟨text.take start, text.drop (start + 1), ?_, h.newline_not_mem, ?_⟩
      · rw [← hget, List.getElem_cons_drop, List.take_append_drop]
      · rw [List.length_take, Nat.min_eq_left (Nat.le_of_lt hlt)]

/-- Characters without a newline do not begin a line. -/
theorem IsLineStart.append_of_not_mem (h : IsLineStart before start) (hspan : '\n' ∉ span) :
    IsLineStart (before ++ span) start := by
  rcases h.cases with ⟨rfl, hnone⟩ | ⟨front, line, rfl, hline, rfl⟩
  · exact isLineStart_zero fun hmem => (List.mem_append.1 hmem).elim hnone hspan
  · rw [List.append_assoc, List.cons_append]
    exact isLineStart_append front fun hmem => (List.mem_append.1 hmem).elim hline hspan

/-- Characters with a newline begin the last line. -/
theorem IsLineStart.append_of_mem (before : List Char) (h : IsLineStart span start)
    (hspan : '\n' ∈ span) : IsLineStart (before ++ span) (before.length + start) := by
  rcases h.cases with ⟨-, hnone⟩ | ⟨front, line, rfl, hline, rfl⟩
  · exact absurd hspan hnone
  · rw [← List.append_assoc, ← Nat.add_assoc, ← List.length_append]
    exact isLineStart_append (before ++ front) hline

/-- A text has one last line. -/
theorem IsLineStart.unique (h : IsLineStart text start) (h' : IsLineStart text start') :
    start = start' := by
  -- of two starts, the later one would have a newline before it that the earlier one excludes
  have hle {start start' : Nat} (h : IsLineStart text start) (h' : IsLineStart text start') :
      start' ≤ start := by
    rcases h'.newline_before with rfl | hbefore
    · exact Nat.zero_le _
    · refine Nat.le_of_not_lt fun hlt => h.newline_not_mem ?_
      rw [List.mem_iff_getElem?]
      have hindex : start + (start' - 1 - start) = start' - 1 := by omega
      exact ⟨start' - 1 - start, by rw [List.getElem?_drop, hindex, hbefore]⟩
  exact Nat.le_antisymm (hle h' h) (hle h h')

/-- The start of the last line is one. -/
theorem isLineStart_lastLineStart (text : List Char) : IsLineStart text (lastLineStart text) := by
  have hsplit := List.takeWhile_append_dropWhile (p := (· != '\n')) (l := text.reverse)
  have hline : '\n' ∉ (text.reverse.takeWhile (· != '\n')).reverse := by
    rw [List.mem_reverse]
    exact Token.not_mem_takeWhile '\n' text.reverse
  rw [lastLineStart]
  -- read from its end, the text is one line or comes to a newline
  cases hrest : text.reverse.dropWhile (· != '\n') with
  | nil =>
    rw [hrest, List.append_nil] at hsplit
    rw [hsplit, List.length_reverse, Nat.sub_self]
    rw [hsplit, List.reverse_reverse] at hline
    exact isLineStart_zero hline
  | cons c front =>
    have htext : text = front.reverse ++ '\n' :: (text.reverse.takeWhile (· != '\n')).reverse := by
      rw [hrest, Token.eq_of_dropWhile hrest] at hsplit
      have hreverse := congrArg List.reverse hsplit
      rw [List.reverse_reverse, List.reverse_append, List.reverse_cons, List.append_assoc,
        List.singleton_append] at hreverse
      exact hreverse.symm
    have hlength : text.length - (text.reverse.takeWhile (· != '\n')).length =
        front.reverse.length + 1 := by
      have hcount := congrArg List.length htext
      rw [List.length_append, List.length_cons, List.length_reverse, List.length_reverse] at hcount
      rw [List.length_reverse]
      omega
    rw [hlength]
    have hstart := isLineStart_append front.reverse hline
    rwa [← htext] at hstart

end IsLineStart

/-- The first source line goes up to the first newline. -/
theorem exists_splitNewlines (text : List Char) :
    ∃ others, splitNewlines text = text.takeWhile (· != '\n') :: others := by
  induction text with
  | nil => exact ⟨[], rfl⟩
  | cons c rest ih =>
    obtain ⟨others, hothers⟩ := ih
    by_cases hc : c = '\n'
    · exact ⟨splitNewlines rest, by simp [splitNewlines, hc]⟩
    · exact ⟨others, by simp [splitNewlines, hc, hothers]⟩

/-- The source lines before a place where a line begins take all characters before it. -/
theorem splitNewlines_append {front : List Char} (hfront : Token.EndsLine front)
    (rest : List Char) :
    ∃ lines, splitNewlines (front ++ rest) = lines ++ splitNewlines rest ∧
      lines.length = front.count '\n' ∧ (lines.map (·.length + 1)).sum = front.length := by
  induction front with
  | nil => exact ⟨[], rfl, rfl, rfl⟩
  | cons c front ih =>
    obtain ⟨lines, hlines, hlength, hsum⟩ := ih hfront.tail
    by_cases hc : c = '\n'
    · refine ⟨[] :: lines, by simp [splitNewlines, hc, hlines], by simp [hc, hlength], ?_⟩
      simp [hsum]
      omega
    -- the line goes on, since it has a newline to end with
    · have hmem : '\n' ∈ front := by simpa [Ne.symm hc] using hfront.newline_mem
      have hpos : 0 < front.count '\n' := List.count_pos_iff.2 hmem
      cases lines with
      | nil => simp only [List.length_nil] at hlength; omega
      | cons line others =>
        refine ⟨(c :: line) :: others, ?_, ?_, ?_⟩
        · rw [List.cons_append, splitNewlines, if_neg hc, hlines]
          rfl
        · simpa [hc] using hlength
        · simp only [List.map_cons, List.sum_cons, List.length_cons] at hsum ⊢
          omega

/-- What stands before the start of a line is empty or ends with a newline. -/
theorem IsLineStart.endsLine {text : List Char} {start : Nat} (h : IsLineStart text start) :
    Token.EndsLine (text.take start) := by
  rcases h.cases with ⟨rfl, -⟩ | ⟨front, span, rfl, -, rfl⟩
  · rw [List.take_zero]
    exact nofun
  · rw [List.append_cons, List.take_left' (by simp)]
    intro last hlast
    simpa using hlast.symm

end Text

/-! ## Places in a text -/

namespace Cursor

/-- The line of a place and the start of its line are right for its offset in a text. -/
structure IsAt (source : List Char) (cursor : Cursor) : Prop where
  line : cursor.line = 1 + (source.take cursor.offset).count '\n'
  lineStart : Text.IsLineStart (source.take cursor.offset) cursor.lineStart

variable {source : List Char} {cursor cursor' : Cursor}

/-- The place at the beginning is right for every text. -/
theorem isAt_start (source : List Char) : IsAt source {} :=
  ⟨rfl, Text.isLineStart_nil⟩

/-- A place is known by its offset. -/
theorem IsAt.unique (h : IsAt source cursor) (h' : IsAt source cursor')
    (hoffset : cursor.offset = cursor'.offset) : cursor = cursor' := by
  -- the line and its start are those of the same characters
  have hline := h.line
  have hstart := h.lineStart
  rw [hoffset] at hline hstart
  cases cursor
  cases cursor'
  simp only [Cursor.mk.injEq]
  exact ⟨hoffset, hline.trans h'.line.symm, hstart.unique h'.lineStart⟩

/-- The line does not begin behind the place. -/
theorem IsAt.lineStart_le (h : IsAt source cursor) : cursor.lineStart ≤ cursor.offset := by
  have hle := h.lineStart.le_length
  rw [List.length_take] at hle
  omega

/-- A place with characters behind it is inside the text. -/
theorem IsAt.offset_le (_ : IsAt source cursor) {first : Char} {rest : List Char}
    (hinput : source.drop cursor.offset = first :: rest) : cursor.offset ≤ source.length := by
  have hlength := congrArg List.length hinput
  rw [List.length_drop, List.length_cons] at hlength
  omega

/-- Passing over characters without a newline stays on the line. -/
theorem IsAt.pass (h : IsAt source cursor) (taken : Nat)
    (hspan : '\n' ∉ (source.drop cursor.offset).take taken) :
    IsAt source { cursor with offset := cursor.offset + taken } where
  line := by
    rw [List.take_add, List.count_append, List.count_eq_zero.2 hspan]
    exact h.line
  lineStart := by
    rw [List.take_add]
    exact h.lineStart.append_of_not_mem hspan

/-- Passing over characters with a newline leads to the line behind the last one. -/
theorem IsAt.breakLine (h : IsAt source cursor) (taken start : Nat)
    (hoffset : cursor.offset ≤ source.length)
    (hstart : Text.IsLineStart ((source.drop cursor.offset).take taken) start)
    (hspan : '\n' ∈ (source.drop cursor.offset).take taken) :
    IsAt source ⟨cursor.offset + taken,
      cursor.line + ((source.drop cursor.offset).take taken).count '\n',
      cursor.offset + start⟩ where
  line := by
    dsimp only
    -- the newlines passed are those before and those of what is taken
    rw [List.take_add, List.count_append, h.line]
    omega
  lineStart := by
    have happend := hstart.append_of_mem (source.take cursor.offset) hspan
    rw [List.length_take, Nat.min_eq_left hoffset] at happend
    rw [List.take_add]
    exact happend

/-- Passing over one newline leads to the start of a line. -/
theorem IsAt.newline (h : IsAt source cursor) (hoffset : cursor.offset ≤ source.length)
    (hone : (source.drop cursor.offset).take 1 = ['\n']) :
    IsAt source ⟨cursor.offset + 1, cursor.line + 1, cursor.offset + 1⟩ := by
  have hstart : Text.IsLineStart ((source.drop cursor.offset).take 1) 1 := by
    rw [hone]
    exact Text.isLineStart_append [] List.not_mem_nil
  have hmem : '\n' ∈ (source.drop cursor.offset).take 1 := by
    rw [hone]
    exact List.mem_cons_self
  have hbreak := h.breakLine 1 1 hoffset hstart hmem
  rw [hone] at hbreak
  exact hbreak

/-- Taking characters one after the other leads to a place that is right. -/
theorem IsAt.advance (h : IsAt source cursor) (taken : Nat)
    (hoffset : cursor.offset + taken ≤ source.length) :
    IsAt source (cursor.advance ((source.drop cursor.offset).take taken)) := by
  induction taken generalizing cursor with
  | zero =>
    rw [List.take_zero]
    exact h
  | succ taken ih =>
    have hlt : cursor.offset < source.length := by omega
    rw [List.drop_eq_getElem_cons hlt, List.take_succ_cons, advance_cons]
    have hone : (source.drop cursor.offset).take 1 = [source[cursor.offset]] := by
      rw [List.drop_eq_getElem_cons hlt]
      rfl
    have hstep : IsAt source (cursor.step source[cursor.offset]) := by
      -- a newline begins a line at the next character; any other character stays on its line
      unfold step
      by_cases hnewline : source[cursor.offset] = '\n'
      · rw [if_pos hnewline]
        rw [hnewline] at hone
        exact h.newline (Nat.le_of_lt hlt) hone
      · rw [if_neg hnewline]
        exact h.pass 1 (by rw [hone]; simpa using Ne.symm hnewline)
    have hdrop : source.drop (cursor.offset + 1) =
        source.drop (cursor.step source[cursor.offset]).offset := by rw [offset_step]
    rw [hdrop]
    exact ih hstep (by rw [offset_step]; omega)

/-- The lines before the line of a place take all characters before it, and the line itself holds
the characters behind the place. -/
theorem IsAt.exists_line (h : IsAt source cursor) (hoffset : cursor.offset ≤ source.length) :
    ∃ lines line others, Text.splitNewlines source = lines ++ line :: others ∧
      lines.length = cursor.line - 1 ∧ (lines.map (·.length + 1)).sum = cursor.lineStart ∧
      line.drop (cursor.column - 1) = (source.drop cursor.offset).takeWhile (· != '\n') := by
  have hle := h.lineStart_le
  have hfront : (source.take cursor.offset).take cursor.lineStart =
      source.take cursor.lineStart := by
    rw [List.take_take, Nat.min_eq_left hle]
  -- the characters before the line make up whole lines
  have hends := h.lineStart.endsLine
  rw [hfront] at hends
  obtain ⟨lines, hlines, hlength, hsum⟩ :=
    Text.splitNewlines_append hends (source.drop cursor.lineStart)
  obtain ⟨others, hothers⟩ := Text.exists_splitNewlines (source.drop cursor.lineStart)
  rw [List.take_append_drop, hothers] at hlines
  -- between the start of the line and the place there is no newline
  have hmiddle := h.lineStart.newline_not_mem
  have hsplit : source.drop cursor.lineStart =
      (source.take cursor.offset).drop cursor.lineStart ++ source.drop cursor.offset := by
    conv => lhs; rw [← List.take_append_drop cursor.offset source]
    rw [List.drop_append_of_le_length]
    rw [List.length_take, Nat.min_eq_left hoffset]
    exact hle
  refine ⟨lines, _, others, hlines, ?_, ?_, ?_⟩
  · have hcount : (source.take cursor.offset).count '\n' =
        (source.take cursor.lineStart).count '\n' := by
      conv => lhs; rw [← List.take_append_drop cursor.lineStart (source.take cursor.offset)]
      rw [List.count_append, List.count_eq_zero.2 hmiddle, hfront]
      rfl
    rw [hlength, h.line, hcount]
    omega
  · rw [hsum, List.length_take, Nat.min_eq_left (Nat.le_trans hle hoffset)]
  · have hcolumn : cursor.column - 1 =
        ((source.take cursor.offset).drop cursor.lineStart).length := by
      rw [List.length_drop, List.length_take, Nat.min_eq_left hoffset, column]
      omega
    rw [hsplit, List.takeWhile_append_of_pos (Token.bne_of_not_mem hmiddle), hcolumn,
      List.drop_left]

/-- The offset of a place can be told from its line and column. -/
theorem IsAt.offsetAt_eq (h : IsAt source cursor) (hoffset : cursor.offset ≤ source.length) :
    Text.offsetAt source cursor.line cursor.column = cursor.offset := by
  obtain ⟨lines, line, others, hsplit, hlength, hsum, -⟩ := h.exists_line hoffset
  have hle := h.lineStart_le
  rw [Text.offsetAt, hsplit, ← hlength, List.take_left, hsum, column]
  omega

/-! ## The place behind a token -/

/-- The place behind a token that takes some characters. A newline begins a new line, and so does a
string that holds newlines, behind the last of them; every other token stays on its line. -/
def behind (cursor : Cursor) (token : Token) (taken : Nat) : Cursor :=
  match token with
  | .newline => ⟨cursor.offset + taken, cursor.line + 1, cursor.offset + taken⟩
  | .text content =>
    let breaks := content.toList.count '\n'
    if 0 < breaks then
      ⟨cursor.offset + taken, cursor.line + breaks,
        cursor.offset + 1 + Text.lastLineStart content.toList⟩
    else { cursor with offset := cursor.offset + taken }
  | _ => { cursor with offset := cursor.offset + taken }

/-- Behind a token the offset has grown by the characters taken. -/
@[simp] theorem offset_behind (cursor : Cursor) (token : Token) (taken : Nat) :
    (cursor.behind token taken).offset = cursor.offset + taken := by
  unfold behind
  split
  · rfl
  · dsimp only
    split <;> rfl
  · rfl

/-- A string leads to the line behind its last newline, with or without its closing quote. -/
theorem IsAt.behind_text (h : IsAt source cursor) (hoffset : cursor.offset ≤ source.length)
    {content : List Char} (ending : List Char) {taken : Nat} (hending : '\n' ∉ ending)
    (hspan : (source.drop cursor.offset).take taken = '"' :: (content ++ ending)) :
    IsAt source (cursor.behind (.text (String.ofList content)) taken) := by
  have hcount : ('"' :: (content ++ ending)).count '\n' = content.count '\n' := by
    rw [List.count_cons, List.count_append, List.count_eq_zero.2 hending]
    rfl
  simp only [behind, String.toList_ofList]
  -- the quotes are no newlines, so the last break of the span is the last one of the content
  by_cases hbreaks : 0 < content.count '\n'
  · have hmem : '\n' ∈ content := List.count_pos_iff.1 hbreaks
    have hcontent := (Text.isLineStart_lastLineStart content).append_of_mem ['"'] hmem
    have hstart := hcontent.append_of_not_mem hending
    rw [List.append_assoc, List.singleton_append, List.length_singleton, ← hspan] at hstart
    have hbreak := h.breakLine _ _ hoffset hstart
      (by rw [hspan]; exact List.mem_cons_of_mem _ (List.mem_append_left _ hmem))
    rw [hspan, hcount, ← Nat.add_assoc] at hbreak
    rw [if_pos hbreaks]
    exact hbreak
  · have hnone : '\n' ∉ content := fun hmem => hbreaks (List.count_pos_iff.2 hmem)
    rw [if_neg hbreaks]
    apply h.pass
    rw [hspan]
    simp [hnone, hending]

end Cursor

namespace Token

/-- No token but a newline or a string holds a newline. A name does not, although its first
character may be any: where a newline stands, it is a token of its own. -/
theorem newline_not_mem_of_spells {shape : Shape} {span behind : List Char} {token : Token}
    (h : Spells shape span behind token) (hearlier : ∀ other ∈ shape.earlier,
      ¬ other.Matches (span ++ behind)) (hnewline : token ≠ .newline)
    (htext : ∀ content, token ≠ .text content) : '\n' ∉ span := by
  cases h with
  | number hrun =>
    intro hmem
    exact absurd (hrun _ hmem) (by decide)
  | newline => exact absurd rfl hnewline
  | bracket hmem =>
    intro hline
    rw [← List.mem_singleton.1 hline] at hmem
    exact not_bracket_newline _ hmem
  | keyword word => exact newline_not_mem_characters word
  | operator => exact newline_not_mem_spelling _
  | closedText => exact absurd rfl (htext _)
  | openText => exact absurd rfl (htext _)
  | @name first tail behind htail hbehind =>
    intro hmem
    -- the first character may be blank, but a newline there has an earlier shape
    rcases List.mem_cons.1 hmem with rfl | hmem
    · exact hearlier .newline (by decide) ⟨['\n'], tail ++ behind, .newline, rfl, .newline⟩
    · exact absurd (htail _ hmem) (by decide)

end Token

/-- The place behind the token in front is right. -/
theorem Cursor.IsAt.behind_front {source : List Char} {cursor : Cursor} (h : cursor.IsAt source)
    {first : Char} {rest : List Char} (hinput : source.drop cursor.offset = first :: rest) :
    (cursor.behind (Token.front first rest).1 (Token.front first rest).2).IsAt source := by
  have hoffset := h.offset_le hinput
  by_cases hfirst : first = '\n'
  · subst hfirst
    rw [Token.front_newline]
    exact h.newline hoffset (by rw [hinput]; rfl)
  · -- the span, what is behind it and the token are all that the cases below look at
    obtain ⟨shape, hcuts, hearlier⟩ := Token.front_cuts first rest
    have hspells := hcuts.spells
    rw [← hinput] at hspells hearlier
    rw [← List.take_append_drop (Token.front first rest).2 (source.drop cursor.offset)] at hearlier
    generalize hspan : (source.drop cursor.offset).take (Token.front first rest).2 = span
      at hspells hearlier
    generalize (source.drop cursor.offset).drop (Token.front first rest).2 = after
      at hspells hearlier
    cases htoken : (Token.front first rest).1 with
    | newline =>
      rw [htoken] at hspells
      -- the newline would be the first character
      cases hspells with
      | newline =>
        rw [hinput, List.take_cons (Token.front_pos first rest)] at hspan
        exact absurd (List.cons.inj hspan).1 hfirst
      | bracket hmem => simp [Token.brackets] at hmem
    | text content =>
      rw [htoken] at hspells
      cases hspells with
      | bracket hmem => simp [Token.brackets] at hmem
      | closedText => exact h.behind_text hoffset ['"'] (by decide) hspan
      | openText =>
        exact h.behind_text hoffset [] List.not_mem_nil (by rw [List.append_nil, hspan])
    | _ =>
      have hnewline : (Token.front first rest).1 ≠ .newline := by simp [htoken]
      have htext : ∀ content, (Token.front first rest).1 ≠ .text content := by simp [htoken]
      have hnone := Token.newline_not_mem_of_spells hspells hearlier hnewline htext
      rw [← hspan] at hnone
      exact h.pass _ hnone

/-- The place where a scan stops behind some characters is right, also if there are fewer. -/
theorem Cursor.IsAt.stopAfter {source : List Char} {cursor : Cursor} (h : cursor.IsAt source)
    (hoffset : cursor.offset ≤ source.length) (taken : Nat) :
    (Token.stopAfter cursor (source.drop cursor.offset) taken).IsAt source := by
  by_cases hle : taken ≤ (source.drop cursor.offset).length
  · rw [Token.stopAfter_eq_advance hle]
    rw [List.length_drop] at hle
    exact h.advance taken (by omega)
  · -- what is taken behind the end changes nothing
    rw [List.length_drop] at hle
    have hend : source.take (cursor.offset + taken) =
        source.take (cursor.offset + (source.length - cursor.offset)) := by
      rw [List.take_of_length_le (by omega), List.take_of_length_le (by omega)]
    have hspan : (source.drop cursor.offset).take taken =
        (source.drop cursor.offset).take (source.length - cursor.offset) := by
      rw [List.take_of_length_le (by rw [List.length_drop]; omega),
        List.take_of_length_le (Nat.le_of_eq List.length_drop)]
    have hadvance := h.advance (source.length - cursor.offset) (by omega)
    have hplace : (cursor.advance ((source.drop cursor.offset).take
        (source.length - cursor.offset))).offset =
        cursor.offset + (source.length - cursor.offset) := by
      rw [Cursor.offset_advance, List.length_take, List.length_drop, Nat.min_self]
    constructor
    · rw [Token.offset_stopAfter, hend, ← hplace, Token.stopAfter, hspan]
      exact hadvance.line
    · rw [Token.offset_stopAfter, hend, ← hplace, Token.stopAfter, hspan]
      exact hadvance.lineStart

/-- The place where a scan stops behind the token in front is the place behind it. -/
theorem Cursor.IsAt.stopAfter_front {source : List Char} {cursor : Cursor} (h : cursor.IsAt source)
    {first : Char} {rest : List Char} (hinput : source.drop cursor.offset = first :: rest) :
    Token.stopAfter cursor (first :: rest) (Token.front first rest).2 =
      cursor.behind (Token.front first rest).1 (Token.front first rest).2 := by
  have hstop := h.stopAfter (h.offset_le hinput) (Token.front first rest).2
  rw [hinput] at hstop
  exact hstop.unique (h.behind_front hinput) (by rw [Token.offset_stopAfter, offset_behind])

/-! ## Readers -/

/-- What reads a text one lexeme at a time. -/
structure Reader where
  /-- The place that was come to. -/
  cursor : Cursor
  /-- The characters that were not read yet. -/
  rest : List Char
  deriving Repr, DecidableEq

namespace Reader

/-- A reader at the beginning of a text. -/
def ofSource (source : String) : Reader :=
  ⟨{}, source.toList⟩

/-- Passes over the gap in front. -/
def skip (cursor : Cursor) : List Char → Reader
  | [] => ⟨cursor, []⟩
  | first :: rest =>
    if Token.isGap first then skip { cursor with offset := cursor.offset + 1 } rest
    else ⟨cursor, first :: rest⟩

/-- The next lexeme, if there is one, and the reader behind it. -/
def next (reader : Reader) : Option Lexeme × Reader :=
  let start := skip reader.cursor reader.rest
  match start.rest with
  | [] => (none, start)
  | first :: rest =>
    let found := Token.front first rest
    let stop := start.cursor.behind found.1 found.2
    (some ⟨found.1, start.cursor, stop⟩, ⟨stop, (first :: rest).drop found.2⟩)

/-- The reader after some calls. -/
def after (reader : Reader) : Nat → Reader
  | 0 => reader
  | calls + 1 => reader.next.2.after calls

/-- The place of a reader is right for a text, and what it has not read is what is behind the
place. -/
structure IsAt (source : List Char) (reader : Reader) : Prop where
  cursor : reader.cursor.IsAt source
  rest : reader.rest = source.drop reader.cursor.offset

variable {source : List Char} {reader : Reader}

/-- A reader begins at a place that is right for its source. -/
theorem isAt_ofSource (source : String) : (ofSource source).IsAt source.toList :=
  ⟨Cursor.isAt_start _, rfl⟩

/-! ### One call and many -/

/-- A newline is no gap: it is a token. -/
theorem ne_newline_of_isGap {c : Char} (h : Token.isGap c = true) : c ≠ '\n' := by
  rintro rfl
  cases h

/-- A gap stays on its line. -/
theorem step_of_isGap {c : Char} (h : Token.isGap c = true) (cursor : Cursor) :
    cursor.step c = { cursor with offset := cursor.offset + 1 } := by
  rw [Cursor.step, if_neg (ne_newline_of_isGap h)]

/-- Passing over a gap keeps the place right. -/
theorem isAt_skip {cursor : Cursor} {input : List Char} (h : IsAt source ⟨cursor, input⟩) :
    (skip cursor input).IsAt source := by
  induction input generalizing cursor with
  | nil => exact h
  | cons first rest ih =>
    unfold skip
    split
    · rename_i hgap
      have hrest : first :: rest = source.drop cursor.offset := h.rest
      apply ih
      constructor
      -- a gap is no newline, so the line is the same behind it
      · refine h.cursor.pass 1 ?_
        rw [← hrest]
        simpa using (ne_newline_of_isGap hgap).symm
      · rw [← List.drop_drop, ← hrest]
        rfl
    · exact h

/-- **One call keeps the place right.** -/
theorem IsAt.next (h : IsAt source reader) : reader.next.2.IsAt source := by
  have hskip := isAt_skip h
  unfold Reader.next
  dsimp only
  split
  · exact hskip
  · rename_i first rest hrest
    have hinput : source.drop (skip reader.cursor reader.rest).cursor.offset = first :: rest := by
      rw [← hskip.rest, hrest]
    constructor
    · exact hskip.cursor.behind_front hinput
    · rw [Cursor.offset_behind, ← List.drop_drop, hinput]

/-- **Any number of calls keeps the place right.** -/
theorem IsAt.after (h : IsAt source reader) (calls : Nat) : (reader.after calls).IsAt source := by
  induction calls generalizing reader with
  | zero => exact h
  | succ calls ih => exact ih h.next

/-- A lexeme that is read begins at a place that is right and inside the text. -/
theorem IsAt.start_of_next (h : IsAt source reader) {lexeme : Lexeme}
    (hnext : reader.next.1 = some lexeme) :
    lexeme.start.IsAt source ∧ lexeme.start.offset < source.length := by
  have hskip := isAt_skip h
  unfold Reader.next at hnext
  dsimp only at hnext
  split at hnext
  · cases hnext
  · rename_i first rest hrest
    cases hnext
    -- a character is left, so the reader is not at the end
    have hinput := hskip.rest
    rw [hrest] at hinput
    have hlength := congrArg List.length hinput
    rw [List.length_cons, List.length_drop] at hlength
    exact ⟨hskip.cursor, by dsimp only; omega⟩

/-! ### Readers and scans -/

/-- Reading may begin behind the gaps. -/
theorem scanFrom_skip (cursor : Cursor) (input : List Char) :
    Token.scanFrom cursor input =
      Token.scanFrom (skip cursor input).cursor (skip cursor input).rest := by
  induction input generalizing cursor with
  | nil => rfl
  | cons first rest ih =>
    unfold skip
    split
    · rename_i hgap
      rw [Token.scanFrom_gap hgap, step_of_isGap hgap]
      exact ih _
    · rfl

/-- Behind a gap stands no other. -/
theorem isGap_of_skip {cursor : Cursor} {input : List Char} {first : Char} {rest : List Char}
    (h : (skip cursor input).rest = first :: rest) : ¬ Token.isGap first = true := by
  induction input generalizing cursor with
  | nil => cases h
  | cons c others ih =>
    unfold skip at h
    split at h
    · exact ih h
    · rename_i hgap
      cases h
      exact hgap

/-- A scan gives what the next call gives and then what the calls behind it give. -/
theorem IsAt.scanFrom_eq (h : IsAt source reader) :
    Token.scanFrom reader.cursor reader.rest =
      match reader.next with
      | (none, behind) => ([], behind.cursor)
      | (some lexeme, behind) =>
        let others := Token.scanFrom behind.cursor behind.rest
        (lexeme :: others.1, others.2) := by
  have hskip := isAt_skip h
  rw [scanFrom_skip, Reader.next]
  generalize hstart : skip reader.cursor reader.rest = start at hskip
  obtain ⟨cursor, input⟩ := start
  cases input with
  | nil => exact Token.scanFrom_nil cursor
  | cons first rest =>
    have hgap := isGap_of_skip (congrArg Reader.rest hstart)
    -- the scan steps over every character, the reader only over breaks; both places are right
    have hstop := hskip.cursor.stopAfter_front hskip.rest.symm
    rw [Token.scanFrom_token hgap]
    dsimp only
    rw [hstop]

/-- A reader that has no more lexemes has read everything. -/
theorem rest_of_next {behind : Reader} (h : reader.next = (none, behind)) : behind.rest = [] := by
  unfold next at h
  dsimp only at h
  split at h
  · rename_i hrest
    cases h
    exact hrest
  · cases h

/-- A reader that has read everything stays where it is. -/
theorem after_of_nil (cursor : Cursor) (calls : Nat) :
    after ⟨cursor, []⟩ calls = ⟨cursor, []⟩ := by
  induction calls with
  | zero => rfl
  | succ calls ih => exact ih

/-- A call that gives a lexeme leads behind it. -/
theorem cursor_of_next {lexeme : Lexeme} {behind : Reader}
    (h : reader.next = (some lexeme, behind)) : behind.cursor = lexeme.stop := by
  unfold next at h
  dsimp only at h
  split at h
  · cases h
  · cases h
    rfl

/-- The calls give the lexemes of the text, one after the other, and lead behind them; then they
give nothing, and lead to the end. -/
theorem IsAt.calls (h : IsAt source reader) (calls : Nat) :
    let scanned := Token.scanFrom reader.cursor reader.rest
    (reader.after calls).next.1 = scanned.1[calls]? ∧
      (reader.after (calls + 1)).cursor = (scanned.1[calls]?.map Lexeme.stop).getD scanned.2 := by
  induction calls generalizing reader with
  | zero =>
    rw [h.scanFrom_eq, Reader.after, Reader.after, Reader.after]
    cases hnext : reader.next with
    | mk found behind =>
      cases found with
      | none => exact ⟨rfl, rfl⟩
      | some lexeme => exact ⟨rfl, cursor_of_next hnext⟩
  | succ calls ih =>
    have hbehind := h.next
    rw [h.scanFrom_eq, Reader.after, Reader.after]
    cases hnext : reader.next with
    | mk found behind =>
      rw [hnext] at hbehind
      cases found with
      | none =>
        -- once nothing is left, every further call leaves the reader where it is
        obtain ⟨cursor, input⟩ := behind
        obtain rfl : input = [] := rest_of_next hnext
        dsimp only
        rw [after_of_nil, after_of_nil]
        exact ⟨rfl, rfl⟩
      | some lexeme => exact ih hbehind

/-- The calls on a text give its lexemes. -/
theorem next_after (source : String) (calls : Nat) :
    ((ofSource source).after calls).next.1 = (Token.lexemes source)[calls]? :=
  ((isAt_ofSource source).calls calls).1

/-- The calls on a text lead behind its lexemes, and in the end to where its scan ends. -/
theorem cursor_after (source : String) (calls : Nat) :
    ((ofSource source).after (calls + 1)).cursor =
      ((Token.lexemes source)[calls]?.map Lexeme.stop).getD (Token.scan source).2 :=
  ((isAt_ofSource source).calls calls).2

end Reader

/-- Every lexeme of a text begins at a place that is right. -/
theorem Token.isAt_start_of_mem {source : String} {lexeme : Lexeme} (h : lexeme ∈ lexemes source) :
    lexeme.start.IsAt source.toList ∧ lexeme.start.offset < source.toList.length := by
  obtain ⟨calls, hget⟩ := List.mem_iff_getElem?.1 h
  have hnext := Reader.next_after source calls
  rw [hget] at hnext
  exact ((Reader.isAt_ofSource source).after calls).start_of_next hnext

/-! ## Positions -/

/-- **Positions are right.** After any number of calls, the line of a reader is one more than the
number of newlines before it, and its line begins behind the last of them or at the beginning; the
calls give the lexemes of the text and lead behind each of them; and for every lexeme the offset
that its line and column tell, by the source lines, is that of its first character. -/
theorem reader_positions (source : String) :
    (∀ calls,
      let cursor := ((Reader.ofSource source).after calls).cursor
      let before := source.toList.take (min cursor.offset source.length)
      cursor.line = 1 + before.count '\n' ∧ Text.IsLineStart before cursor.lineStart) ∧
    (∀ calls, ((Reader.ofSource source).after calls).next.1 = (Token.lexemes source)[calls]? ∧
      ((Reader.ofSource source).after (calls + 1)).cursor =
        ((Token.lexemes source)[calls]?.map Lexeme.stop).getD (Token.scan source).2) ∧
    ∀ lexeme ∈ Token.lexemes source,
      Text.offsetAt source.toList lexeme.start.line lexeme.start.column = lexeme.start.offset := by
  -- the place after any number of calls, what each call reads, and each lexeme from its position
  refine ⟨?_, ?_, ?_⟩
  · intro calls cursor before
    have hat := ((Reader.isAt_ofSource source).after calls).cursor
    have hbefore : before = source.toList.take cursor.offset := by
      rw [List.take_eq_take_min, String.length_toList]
    rw [hbefore]
    exact ⟨hat.line, hat.lineStart⟩
  · intro calls
    exact ⟨Reader.next_after source calls, Reader.cursor_after source calls⟩
  · intro lexeme hmem
    obtain ⟨hat, hlt⟩ := Token.isAt_start_of_mem hmem
    exact hat.offsetAt_eq (Nat.le_of_lt hlt)

end Scriptlet
