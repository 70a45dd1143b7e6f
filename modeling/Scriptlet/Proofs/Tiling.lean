import Scriptlet.Proofs.Reader

/-! # Lexemes tile their text

The spans of the lexemes of a text and the gaps between them take up the whole text: no character is
lost, and none is read twice. What stands in a gap is spaces and tabs, and what stands in a span has
the first shape that the text has at that place.

* `TilesFrom source offset lexemes ending`: gaps and lexemes follow each other without a break, from
  an offset to where the reading ends. A scan runs along such a row.
* `Tiling source lexemes ending`: what can be seen of the lexemes as a whole.
* `lexemes_tile`: the lexemes of every text are a tiling of it, and reading them one at a time ends
  after at most as many calls as the text has characters. -/

namespace Scriptlet

namespace Lexeme

/-- The characters of a lexeme. -/
def span (source : List Char) (lexeme : Lexeme) : List Char :=
  (source.drop lexeme.start.offset).take (lexeme.stop.offset - lexeme.start.offset)

/-- A lexeme is a string that goes to the end of the text without being closed. -/
def IsUnterminated (source : List Char) (lexeme : Lexeme) : Prop :=
  Token.Unterminated (source.drop lexeme.start.offset) lexeme.token

end Lexeme

namespace Token

/-- Lexemes and the gaps between them follow each other from an offset on, up to the place where the
reading ends. -/
inductive TilesFrom (source : List Char) : Nat → List Lexeme → Nat → Prop where
  /-- Nothing is left. -/
  | done {offset : Nat} (hend : source.length ≤ offset) : TilesFrom source offset [] offset
  /-- A space or a tab. -/
  | gap {offset ending : Nat} {c : Char} {lexemes : List Lexeme} (hget : source[offset]? = some c)
      (hgap : isGap c = true) (hrest : TilesFrom source (offset + 1) lexemes ending) :
      TilesFrom source offset lexemes ending
  /-- A lexeme of the first shape that there is. -/
  | lexeme {ending taken : Nat} {shape : Shape} {lexeme : Lexeme} {lexemes : List Lexeme}
      (htaken : 0 < taken) (hstop : lexeme.stop.offset = lexeme.start.offset + taken)
      (hinside : lexeme.start.offset < source.length)
      (hcuts : Cuts shape (source.drop lexeme.start.offset) (lexeme.token, taken))
      (hearlier : ∀ other ∈ shape.earlier, ¬ other.Matches (source.drop lexeme.start.offset))
      (hrest : TilesFrom source lexeme.stop.offset lexemes ending) :
      TilesFrom source lexeme.start.offset (lexeme :: lexemes) ending

/-- A scan runs along lexemes and gaps. -/
theorem tilesFrom_scanFrom {source : List Char} (cursor : Cursor) (input : List Char)
    (hinput : input = source.drop cursor.offset) :
    TilesFrom source cursor.offset (scanFrom cursor input).1 (scanFrom cursor input).2.offset := by
  induction cursor, input using scanFrom_induction with
  | nil cursor =>
    rw [scanFrom_nil]
    exact .done (List.drop_eq_nil_iff.1 hinput.symm)
  | gap cursor first rest hgap ih =>
    have hget : source[cursor.offset]? = some first := by
      rw [← List.head?_drop, ← hinput]
      rfl
    rw [scanFrom_gap hgap]
    refine .gap hget hgap ?_
    rw [← Cursor.offset_step cursor first]
    apply ih
    rw [Cursor.offset_step, ← List.drop_drop, ← hinput]
    rfl
  | token cursor first rest hgap ih =>
    -- the lexeme begins at the place of the scan, where a character is left
    obtain ⟨shape, hcuts, hearlier⟩ := front_cuts first rest
    have hlength := congrArg List.length hinput
    rw [List.length_cons, List.length_drop] at hlength
    rw [hinput] at hcuts hearlier
    rw [scanFrom_token hgap]
    refine @TilesFrom.lexeme source _ _ _ ⟨_, cursor, _⟩ _ (front_pos first rest) rfl
      (by dsimp only; omega) hcuts hearlier (ih ?_)
    rw [offset_stopAfter, ← List.drop_drop, ← hinput]

/-! ## What a row of lexemes and gaps comes to -/

variable {source : List Char} {offset ending : Nat} {lexemes : List Lexeme}

/-- There are no more lexemes than characters. -/
theorem TilesFrom.length_le (h : TilesFrom source offset lexemes ending) :
    lexemes.length ≤ source.length - offset := by
  induction h with
  | done => exact Nat.zero_le _
  | gap _ _ _ ih => omega
  | lexeme htaken hstop hinside _ _ _ ih =>
    rw [List.length_cons]
    omega

/-- Every lexeme begins inside the text, and not before the offset. -/
theorem TilesFrom.start_of_mem (h : TilesFrom source offset lexemes ending) {lexeme : Lexeme}
    (hmem : lexeme ∈ lexemes) :
    offset ≤ lexeme.start.offset ∧ lexeme.start.offset < min lexeme.stop.offset source.length := by
  induction h with
  | done => cases hmem
  | gap _ _ _ ih =>
    have hstart := ih hmem
    omega
  | lexeme htaken hstop hinside _ _ _ ih =>
    rcases List.mem_cons.1 hmem with rfl | hmem
    · omega
    · have hstart := ih hmem
      omega

/-- Every lexeme ends before the next one begins. -/
theorem TilesFrom.pairwise (h : TilesFrom source offset lexemes ending) :
    lexemes.Pairwise fun lexeme later => lexeme.stop.offset ≤ later.start.offset := by
  induction h with
  | done => exact .nil
  | gap _ _ _ ih => exact ih
  | lexeme _ _ _ _ _ hrest ih => exact .cons (fun later hmem => (hrest.start_of_mem hmem).1) ih

/-- A character that is in no lexeme is a space or a tab. -/
theorem TilesFrom.isGap_of_outside (h : TilesFrom source offset lexemes ending) {place : Nat}
    {c : Char} (hget : source[place]? = some c) (hplace : offset ≤ place)
    (houtside : ∀ lexeme ∈ lexemes,
      ¬ (lexeme.start.offset ≤ place ∧ place < lexeme.stop.offset)) : isGap c = true := by
  induction h with
  | done hend =>
    obtain ⟨hlt, -⟩ := List.getElem?_eq_some_iff.1 hget
    omega
  | @gap offset _ _ _ hgetGap hgap _ ih =>
    by_cases hhere : place = offset
    · rw [hhere, hgetGap] at hget
      cases hget
      exact hgap
    · exact ih (by omega) houtside
  | lexeme _ _ _ _ _ _ ih =>
    -- the place is not in this lexeme, so it is behind it
    have hnot := houtside _ List.mem_cons_self
    exact ih (by omega) fun lexeme hmem => houtside lexeme (List.mem_cons_of_mem _ hmem)

/-- Every lexeme has the first shape that the text has at its place. -/
theorem TilesFrom.spells_of_mem (h : TilesFrom source offset lexemes ending) {lexeme : Lexeme}
    (hmem : lexeme ∈ lexemes) :
    ∃ shape, Spells shape (lexeme.span source) (source.drop lexeme.stop.offset) lexeme.token ∧
      ∀ other ∈ shape.earlier, ¬ other.Matches (source.drop lexeme.start.offset) := by
  induction h with
  | done => cases hmem
  | gap _ _ _ ih => exact ih hmem
  | @lexeme _ taken shape lexeme _ _ hstop _ hcuts hearlier _ ih =>
    rcases List.mem_cons.1 hmem with rfl | hmem
    -- the span of a lexeme is what was cut off for it
    · have htaken : lexeme.stop.offset - lexeme.start.offset = taken := by omega
      have hspells := hcuts.spells
      rw [List.drop_drop, ← hstop] at hspells
      rw [Lexeme.span, htaken]
      exact ⟨shape, hspells, hearlier⟩
    · exact ih hmem

/-- Behind an unclosed string nothing is left. -/
theorem TilesFrom.eq_done (h : TilesFrom source offset lexemes ending)
    (hoffset : source.length < offset) : lexemes = [] ∧ ending = offset := by
  cases h with
  | done => exact ⟨rfl, rfl⟩
  | gap hget _ _ =>
    obtain ⟨hlt, -⟩ := List.getElem?_eq_some_iff.1 hget
    omega
  | lexeme _ _ hinside _ _ _ => omega

/-- The reading ends at the end of the text, or one place behind it if the last lexeme is an
unclosed string. -/
theorem TilesFrom.ending_cases (h : TilesFrom source offset lexemes ending)
    (hoffset : offset ≤ source.length) :
    (ending = source.length ∧
      ∀ last, lexemes.getLast? = some last → ¬ last.IsUnterminated source) ∨
    (ending = source.length + 1 ∧
      ∃ last, lexemes.getLast? = some last ∧ last.IsUnterminated source) := by
  induction h with
  | done hend => exact .inl ⟨Nat.le_antisymm hoffset hend, nofun⟩
  | gap hget _ _ ih =>
    obtain ⟨hlt, -⟩ := List.getElem?_eq_some_iff.1 hget
    exact ih hlt
  | @lexeme ending taken shape lexeme lexemes htaken hstop hinside hcuts hearlier hrest ih =>
    have hlength := hcuts.length
    rw [List.length_drop] at hlength
    rw [List.getLast?_cons]
    rcases hlength with ⟨hle, hclosed⟩ | ⟨hbehind, hopen⟩
    · have hstopLe : lexeme.stop.offset ≤ source.length := by dsimp only at hle; omega
      -- a lexeme further on is the last one, or else this one
      cases hlast : lexemes.getLast? with
      | none =>
        rw [hlast] at ih
        rcases ih hstopLe with ⟨hending, -⟩ | ⟨-, last, hnone, -⟩
        · refine .inl ⟨hending, ?_⟩
          rintro last hthis
          cases hthis
          exact hclosed
        · cases hnone
      | some last =>
        rw [hlast] at ih
        exact ih hstopLe
    · -- what is behind the end of the text is neither a lexeme nor a gap
      obtain ⟨rfl, rfl⟩ := hrest.eq_done (by dsimp only at hbehind; omega)
      refine .inr ⟨by dsimp only at hbehind; omega, lexeme, rfl, hopen⟩

end Token

/-! ## Whole texts -/

/-- Lexemes tile a text, and reading them ends at a place. -/
structure Tiling (source : List Char) (lexemes : List Lexeme) (ending : Nat) : Prop where
  /-- There are at most as many lexemes as characters. -/
  length_le : lexemes.length ≤ source.length
  /-- No span is empty. -/
  nonempty : ∀ lexeme ∈ lexemes, lexeme.start.offset < min lexeme.stop.offset source.length
  /-- The spans are in order, and none begins before those in front of it end. -/
  disjoint : lexemes.Pairwise fun lexeme later => lexeme.stop.offset ≤ later.start.offset
  /-- Outside of the spans there are only spaces and tabs. -/
  outside : ∀ place c, source[place]? = some c →
    (∀ lexeme ∈ lexemes, ¬ (lexeme.start.offset ≤ place ∧ place < lexeme.stop.offset)) →
    c = ' ' ∨ c = '\t'
  /-- Every span has a shape and spells its token, and there is no earlier shape at its place. -/
  spells : ∀ lexeme ∈ lexemes, ∃ shape,
    Token.Spells shape (lexeme.span source) (source.drop lexeme.stop.offset) lexeme.token ∧
      ∀ other ∈ shape.earlier, ¬ other.Matches (source.drop lexeme.start.offset)
  /-- The reading ends at the end of the text or one place behind it. -/
  ending_eq : ending = source.length ∨ ending = source.length + 1
  /-- The reading ends behind the text exactly if the last lexeme is an unclosed string. -/
  ending_iff : ending = source.length + 1 ↔
    ∃ last, lexemes.getLast? = some last ∧ last.IsUnterminated source

/-- A row of lexemes and gaps from the beginning on is a tiling. -/
theorem Token.TilesFrom.tiling {source : List Char} {lexemes : List Lexeme} {ending : Nat}
    (h : TilesFrom source 0 lexemes ending) : Tiling source lexemes ending where
  length_le := h.length_le
  nonempty := fun _ hmem => (h.start_of_mem hmem).2
  disjoint := h.pairwise
  outside := by
    intro place c hget houtside
    have hgap := h.isGap_of_outside hget (Nat.zero_le _) houtside
    simpa [isGap] using hgap
  spells := fun _ hmem => h.spells_of_mem hmem
  ending_eq := by
    rcases h.ending_cases (Nat.zero_le _) with ⟨hending, -⟩ | ⟨hending, -⟩
    · exact .inl hending
    · exact .inr hending
  -- the text ends behind its end just if the last string is open
  ending_iff := by
    rcases h.ending_cases (Nat.zero_le _) with ⟨hending, hclosed⟩ | ⟨hending, hopen⟩
    · constructor
      · intro hbehind
        omega
      · rintro ⟨last, hlast, hunterminated⟩
        exact absurd hunterminated (hclosed last hlast)
    · exact ⟨fun _ => hopen, fun _ => hending⟩

/-- The lexemes of a text are a tiling of it. -/
theorem Token.lexemes_tiling (source : String) :
    Tiling source.toList (lexemes source) (scan source).2.offset :=
  (tilesFrom_scanFrom {} source.toList rfl).tiling

/-- **Lexemes tile their text.** The lexemes of a text are a tiling of it. Read one at a time, they
come one after the other; from the call on whose number is that of the characters, none comes any
more, and the reader stays where the tiling ends. -/
theorem lexemes_tile (source : String) :
    Tiling source.toList (Token.lexemes source) (Token.scan source).2.offset ∧
    (∀ calls, ((Reader.ofSource source).after calls).next.1 = (Token.lexemes source)[calls]?) ∧
    ∀ calls, source.length ≤ calls →
      ((Reader.ofSource source).after calls).next.1 = none ∧
      ((Reader.ofSource source).after (calls + 1)).cursor = (Token.scan source).2 := by
  have htiling := Token.lexemes_tiling source
  refine ⟨htiling, Reader.next_after source, ?_⟩
  intro calls hcalls
  -- no more lexemes than characters, so that many calls have read everything
  have hnone : (Token.lexemes source)[calls]? = none := by
    rw [List.getElem?_eq_none_iff]
    have hle := htiling.length_le
    rw [String.length_toList] at hle
    exact Nat.le_trans hle hcalls
  constructor
  · rw [Reader.next_after, hnone]
  · rw [Reader.cursor_after, hnone]
    rfl

end Scriptlet
