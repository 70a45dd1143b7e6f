import Scriptlet.Proofs.Pointing

/-! # Cutting a text at the ends of lines

At the end of a line a text can be cut in two: its tokens are those of the first part and then those
of the second, on the same columns and on lines further down. No shape but a string sees over the
end of a line, so this fails only if the first part ends inside a string, which the second may then
close.

* `Sighting`: a token with its line and column, which is all that is seen of a lexeme further on.
* `length_scanFrom_quote`: a quote behind an open string adds no lexeme.
* `sightings_append_iff`: a text that ends a line can be continued by every text, each keeping its
  tokens, exactly if it does not end inside a string. -/

namespace Scriptlet

/-- A token with the line and the column of its first character. -/
structure Sighting where
  /-- The token. -/
  token : Token
  /-- The number of its line, from one. -/
  line : Nat
  /-- The number of its column, from one. -/
  column : Nat
  deriving Repr, DecidableEq

/-- A token seen some lines further down. -/
def Sighting.lower (lines : Nat) (sighting : Sighting) : Sighting :=
  { sighting with line := sighting.line + lines }

/-- What is seen of a lexeme. -/
def Lexeme.sighting (lexeme : Lexeme) : Sighting :=
  ⟨lexeme.token, lexeme.start.line, lexeme.start.column⟩

/-- A lexeme further on in a text is seen on a lower line, in the same column. -/
@[simp] theorem Lexeme.sighting_shift (characters lines : Nat) (lexeme : Lexeme) :
    (lexeme.shift characters lines).sighting = lexeme.sighting.lower lines := by
  simp only [Lexeme.sighting, Lexeme.shift, Cursor.line_shift, Cursor.column_shift, Sighting.lower]

namespace Token

/-- The tokens of a text, each with its line and column. -/
def sightings (source : String) : List Sighting :=
  (lexemes source).map Lexeme.sighting

/-! ## Open strings -/

section Open

variable {cursor : Cursor} {first : Char} {rest : List Char}

/-- The empty text is closed. -/
theorem isClosed_nil (cursor : Cursor) : IsClosed cursor [] := by
  rw [IsClosed, scanFrom_nil]
  rfl

/-- A text is closed if it is behind its first gap. -/
theorem isClosed_of_gap (hgap : isGap first = true) (h : IsClosed (cursor.step first) rest) :
    IsClosed cursor (first :: rest) := by
  rw [IsClosed, Cursor.offset_step] at h
  rw [IsClosed, scanFrom_gap hgap, h, List.length_cons]
  omega

/-- A text is closed if it is behind its first token. -/
theorem isClosed_of_token (hgap : ¬ isGap first = true)
    (hinside : (front first rest).2 ≤ (first :: rest).length)
    (h : IsClosed (stopAfter cursor (first :: rest) (front first rest).2)
      ((first :: rest).drop (front first rest).2)) : IsClosed cursor (first :: rest) := by
  rw [IsClosed, offset_stopAfter, List.length_drop] at h
  rw [IsClosed, scanFrom_token hgap]
  dsimp only
  omega

/-- Only a string without a closing quote reaches behind the end of a text. -/
theorem unterminated_of_lt (h : (first :: rest).length < (front first rest).2) :
    first = '"' ∧ '"' ∉ rest := by
  obtain ⟨shape, hcuts, -⟩ := front_cuts first rest
  rcases hcuts.length with ⟨hinside, -⟩ | ⟨-, content, hcontent, hquote, -⟩
  · exact absurd h (Nat.not_lt.2 hinside)
  · obtain ⟨rfl, rfl⟩ := List.cons.inj hcontent
    exact ⟨rfl, hquote⟩

/-- A token that takes the whole text is its only lexeme. -/
theorem length_scanFrom_of_le (cursor : Cursor) (hgap : ¬ isGap first = true)
    (hall : (first :: rest).length ≤ (front first rest).2) :
    (scanFrom cursor (first :: rest)).1.length = 1 := by
  rw [scanFrom_token hgap, List.drop_of_length_le hall]
  dsimp only
  rw [scanFrom_nil, List.length_singleton]

/-- An open string is one lexeme, and so it is with a quote behind it. -/
theorem length_scanFrom_open (cursor : Cursor) {content : List Char} (hcontent : '"' ∉ content) :
    (scanFrom cursor ('"' :: content)).1.length = 1 ∧
      (scanFrom cursor ('"' :: (content ++ ['"']))).1.length = 1 := by
  have hgap : ¬ isGap '"' = true := by decide
  -- with or without the closing mark, the string is all that is left
  have hopen : content.takeWhile (· != '"') = content :=
    List.takeWhile_eq_self_iff.2 (bne_of_not_mem hcontent)
  have hclosed : (content ++ ['"']).takeWhile (· != '"') = content :=
    takeWhile_append_eq (bne_of_not_mem hcontent) (by simp)
  constructor
  · apply length_scanFrom_of_le cursor hgap
    rw [front_quote, hopen, List.length_cons]
    exact Nat.le_succ _
  · apply length_scanFrom_of_le cursor hgap
    rw [front_quote, hclosed, List.length_cons, List.length_append, List.length_singleton]

end Open

/-- A quote behind a text that ends inside a string closes it, and adds no lexeme. -/
theorem length_scanFrom_quote {cursor : Cursor} {input : List Char} (hends : EndsLine input)
    (hopen : ¬ IsClosed cursor input) :
    (scanFrom cursor (input ++ ['"'])).1.length = (scanFrom cursor input).1.length := by
  induction cursor, input using scanFrom_induction with
  | nil cursor => exact absurd (isClosed_nil cursor) hopen
  | gap cursor first rest hgap ih =>
    rw [List.cons_append, scanFrom_gap hgap, scanFrom_gap hgap]
    exact ih hends.tail fun hclosed => hopen (isClosed_of_gap hgap hclosed)
  | token cursor first rest hgap ih =>
    rcases Nat.lt_or_ge (first :: rest).length (front first rest).2 with hbehind | hinside
    · -- this is the open string
      obtain ⟨rfl, hquote⟩ := unterminated_of_lt hbehind
      obtain ⟨hone, hone'⟩ := length_scanFrom_open cursor hquote
      rw [List.cons_append, hone, hone']
    · -- the open string is further on, so the first token is the same
      have hlater := ih (hends.drop _) fun hclosed => hopen (isClosed_of_token hgap hinside hclosed)
      have hstop : stopAfter cursor (first :: rest ++ ['"']) (front first rest).2 =
          stopAfter cursor (first :: rest) (front first rest).2 := by
        rw [stopAfter, stopAfter, List.take_append_of_le_length hinside]
      rw [← List.drop_append_of_le_length hinside, ← hstop] at hlater
      rw [List.cons_append, scanFrom_token hgap, scanFrom_token hgap,
        front_append hends hinside, ← List.cons_append]
      dsimp only
      rw [List.length_cons, List.length_cons, hlater, hstop]

/-! ## Whole texts -/

/-- A text that ends inside a string is not closed. -/
theorem not_isClosed_of_endsInString {source : String} (h : EndsInString source) :
    ¬ IsClosed {} source.toList := by
  intro hclosed
  have hbehind := offset_ending_of_endsInString h
  rw [scan, hclosed, String.length_toList, Nat.zero_add] at hbehind
  omega

/-- What is seen of a text that is put together from two. -/
theorem sightings_append {source : String} (hends : EndsLine source.toList)
    (hclosed : ¬ EndsInString source) (next : String) :
    sightings (source ++ next) =
      sightings source ++ (sightings next).map (Sighting.lower (source.toList.count '\n')) := by
  rw [sightings, lexemes_append hends (offset_ending_of_not_endsInString hclosed), List.map_append,
    List.map_map, sightings, sightings, List.map_map]
  congr 2
  funext lexeme
  exact lexeme.sighting_shift _ _

/-- **Cutting a text at the end of a line.** Let a text be empty or end with a newline. Behind it,
every text keeps its tokens and their columns, each on a line further down by the lines of the
first, and the first keeps all of its own, exactly if the first does not end inside a string. -/
theorem sightings_append_iff (source : String) (hends : EndsLine source.toList) :
    (∀ next, sightings (source ++ next) =
      sightings source ++ (sightings next).map (Sighting.lower (source.toList.count '\n'))) ↔
    ¬ EndsInString source := by
  constructor
  · intro happend hopen
    -- a quote is a token by itself, but not where it closes a string
    have hlength := congrArg List.length (happend "\"")
    have hquote : (sightings "\"").length = 1 := by cbv
    have hsame := length_scanFrom_quote hends (not_isClosed_of_endsInString hopen)
    rw [List.length_append, List.length_map, hquote, sightings, List.length_map, sightings,
      List.length_map, lexemes, lexemes, scan, scan, String.toList_append] at hlength
    exact absurd (hlength.symm.trans hsame) (Nat.succ_ne_self _)
  · intro hclosed next
    exact sightings_append hends hclosed next

/-- A string over two lines is closed before the end of the text, so a text can follow it. -/
theorem sightings_append_behind_string :
    let source := "s = \"a\nb\"\n"
    EndsLine source.toList ∧ ¬ EndsInString source ∧
      sightings (source ++ "if s == s") =
        sightings source ++ (sightings "if s == s").map (Sighting.lower 2) ∧
      (sightings (source ++ "if s == s")).getLast? = some ⟨.name "s", 3, 9⟩ := by
  intro source
  have hends : EndsLine source.toList := by
    have hlast : source.toList.getLast? = some '\n' := by cbv
    intro last hlast'
    exact Option.some.inj (hlast'.symm.trans hlast)
  have hclosed : ¬ EndsInString source := by
    intro hopen
    have hbehind := offset_ending_of_endsInString hopen
    -- the scan stops where the text does, and not behind a quote that is missing
    have hend : (scan source).2.offset = source.length := by cbv
    omega
  have hlines : source.toList.count '\n' = 2 := by cbv
  have happend := (sightings_append_iff source hends).2 hclosed "if s == s"
  rw [hlines] at happend
  exact ⟨hends, hclosed, happend, by cbv⟩

end Token

end Scriptlet
