import Scriptlet.Proofs.Rereading
import Scriptlet.Proofs.Tiling
import Scriptlet.Proofs.ViablePrefix

/-! # Where rejections point

A text that is no program is rejected at the first lexeme that no program can have there, or at its
end if everything was accepted but something is missing. The end is where a reader stands once it
has found that no lexeme is left: on the last line, behind all blanks, and one place further if the
text ends inside a string.

* `Token.EndsInString`: a text ends inside a string.
* `Token.isAt_ending`, `Token.column_ending`: the place where a text ends.
* `Program.IsFirstRefused`: a lexeme is the first one that cannot be accepted.
* `Program.rejection_points_at_refused_or_end`: what a rejection points at. -/

namespace Scriptlet

/-! ## The end of a text -/

namespace Token

/-- A text ends inside a string: its last lexeme is a string that is never closed. -/
def EndsInString (source : String) : Prop :=
  ∃ last, (lexemes source).getLast? = some last ∧ last.IsUnterminated source.toList

/-- The place where a text ends is that of a reader which has found no lexeme any more. -/
theorem cursor_of_exhausted {source : String} {calls : Nat}
    (h : ((Reader.ofSource source).after calls).next.1 = none) :
    ((Reader.ofSource source).after (calls + 1)).cursor = (scan source).2 := by
  rw [Reader.next_after] at h
  rw [Reader.cursor_after, h]
  rfl

/-- The place where a text ends is right. -/
theorem isAt_ending (source : String) : (scan source).2.IsAt source.toList := by
  have hnone : ((Reader.ofSource source).after (lexemes source).length).next.1 = none := by
    rw [Reader.next_after, List.getElem?_length]
  rw [← cursor_of_exhausted hnone]
  exact ((Reader.isAt_ofSource source).after _).cursor

variable {source : String}

/-- A text that ends inside a string is read to one character behind its end. -/
theorem offset_ending_of_endsInString (h : EndsInString source) :
    (scan source).2.offset = source.length + 1 := by
  rw [← String.length_toList]
  exact (lexemes_tiling source).ending_iff.2 h

/-- Any other text is read to its end. -/
theorem offset_ending_of_not_endsInString (h : ¬ EndsInString source) :
    (scan source).2.offset = source.length := by
  have htiling := lexemes_tiling source
  rw [← String.length_toList]
  exact htiling.ending_eq.resolve_right fun hbehind => h (htiling.ending_iff.1 hbehind)

/-- All characters of a text stand before the place where it ends. -/
theorem take_ending (source : String) :
    source.toList.take (scan source).2.offset = source.toList := by
  have hending := (lexemes_tiling source).ending_eq
  exact List.take_of_length_le (by omega)

/-- A text ends on its last line. -/
theorem line_ending (source : String) :
    (scan source).2.line = 1 + source.toList.count '\n' := by
  rw [(isAt_ending source).line, take_ending]

/-- Reading ends on the last line of the text. -/
theorem lineStart_ending (source : String) :
    (scan source).2.lineStart = Text.lastLineStart source.toList := by
  have hstart := (isAt_ending source).lineStart
  rw [take_ending] at hstart
  exact hstart.unique (Text.isLineStart_lastLineStart source.toList)

/-- The last line begins inside the text, so that the column of a place behind it is counted from
there on. -/
theorem column_ending {beyond : Nat} (h : (scan source).2.offset = source.length + beyond) :
    (scan source).2.column =
      source.length - Text.lastLineStart source.toList + 1 + beyond := by
  have hle := (Text.isLineStart_lastLineStart source.toList).le_length
  rw [String.length_toList] at hle
  rw [Cursor.column, h, lineStart_ending]
  omega

end Token

/-! ## Rejections -/

namespace Program

/-- A lexeme in a list is the first one that cannot be accepted: those before it are the beginning
of a program, and together with it they are the beginning of none, whatever the limit. -/
def IsFirstRefused (origin : Origin) (limit : Nat) (lexemes : List Lexeme) (found : Lexeme) :
    Prop :=
  ∃ used rest, lexemes = used ++ found :: rest ∧ IsViable origin limit used ∧
    ∀ limit', ¬ IsViable origin limit' (used ++ [found])

/-- The culprit of a fault is the first lexeme that is refused. -/
theorem isFirstRefused_of_culprit {origin : Origin} {limit : Nat} {lexemes : List Lexeme}
    {fault : ParseFault} {found : Lexeme} (h : ofLexemes origin limit lexemes = .error fault)
    (hculprit : fault.culprit? = some found) : IsFirstRefused origin limit lexemes found := by
  obtain ⟨used, rest, hlexemes, hviable, hrefused⟩ := exists_culprit h hculprit
  refine ⟨used, rest, hlexemes, hviable, ?_⟩
  rintro limit' ⟨more, program, hread⟩
  rw [List.append_assoc, List.singleton_append] at hread
  exact ne_ok_of_culprit (hrefused more) hculprit limit' program hread

/-- **What a rejection points at.** If a lexeme was found in the place of another, the rejection
has its position and its text, and it is the first lexeme of the text that cannot be accepted. If
the text ended too early, all of it was accepted, the rejection has no token, and it points behind
the last character of the last line, one column further exactly if the text ends inside a string;
this is where a reader of the text stands as soon as it has found no lexeme any more. -/
theorem rejection_points_at_refused_or_end (limit : Nat) (filename : Option String)
    (firstHandle : Nat) (source : String) (rejection : Rejection)
    (hread : ofSource limit filename firstHandle source = .error rejection) :
    (∀ wanted found, rejection.fault = .unexpected wanted found →
      rejection.place = ⟨filename, found.start.line, found.start.column⟩ ∧
      rejection.token = found.token.quoted ∧
      IsFirstRefused ⟨filename, firstHandle⟩ limit (Token.lexemes source) found) ∧
    (∀ wanted, rejection.fault = .incomplete wanted →
      IsViable ⟨filename, firstHandle⟩ limit (Token.lexemes source) ∧
      rejection.token = "" ∧
      rejection.place.line = (1 + source.toList.count '\n' : Nat) ∧
      (¬ Token.EndsInString source → rejection.place.column =
        (source.length - Text.lastLineStart source.toList + 1 : Nat)) ∧
      (Token.EndsInString source → rejection.place.column =
        (source.length - Text.lastLineStart source.toList + 1 + 1 : Nat)) ∧
      ∀ calls, ((Reader.ofSource source).after calls).next.1 = none →
        ((Reader.ofSource source).after (calls + 1)).cursor = rejection.cursor) := by
  obtain ⟨fault, hfault, rfl⟩ := ofSource_eq_error_iff.1 hread
  constructor
  · rintro wanted found rfl
    exact ⟨rfl, rfl, isFirstRefused_of_culprit hfault rfl⟩
  · rintro wanted rfl
    refine ⟨isViable_of_isOpen (.inr ⟨wanted, toEnd_eq_error_iff.mpr hfault⟩), rfl, ?_, ?_, ?_, ?_⟩
    · exact congrArg Nat.cast (Token.line_ending source)
    · intro hclosed
      have hoffset : (Token.scan source).2.offset = source.length + 0 :=
        Token.offset_ending_of_not_endsInString hclosed
      exact congrArg Nat.cast (Token.column_ending hoffset)
    -- the string goes on to a quote that is missing, one column behind the end
    · intro hopen
      have hoffset := Token.offset_ending_of_endsInString hopen
      exact congrArg Nat.cast (Token.column_ending hoffset)
    · intro calls hnone
      exact Token.cursor_of_exhausted hnone

/-- `print ("a` and `b` on the next line end inside a string inside a group, at column three; in
`print x y` the second name is refused. -/
theorem rejection_points_behind_unclosed_string :
    (∃ rejection, ofSource nestingLimit none 0 "print (\"a\nb" = .error rejection ∧
      rejection.fault = .incomplete .closeGroup ∧ Token.EndsInString "print (\"a\nb" ∧
      rejection.token = "" ∧ rejection.place.line = 2 ∧ rejection.place.column = 3) ∧
    ∃ rejection found, ofSource nestingLimit none 0 "print x y" = .error rejection ∧
      rejection.fault = .unexpected (.endOfPrint (.name "x")) found ∧
      rejection.place = ⟨none, 1, 9⟩ ∧ rejection.token = "y" ∧
      IsFirstRefused ⟨none, 0⟩ nestingLimit (Token.lexemes "print x y") found := by
  have hlimit : 9 ≤ nestingLimit := by decide
  constructor
  · have hread : ofSource 9 none 0 "print (\"a\nb" =
        .error ⟨.incomplete .closeGroup, none, ⟨12, 2, 10⟩⟩ := by cbv
    replace hread := ofSource_of_le hlimit hread (by rintro _ ⟨⟩ ⟨⟩)
    have hopen : Token.EndsInString "print (\"a\nb" :=
      ⟨⟨.text "a\nb", ⟨7, 1, 0⟩, ⟨12, 2, 10⟩⟩, by cbv, ['a', '\n', 'b'], by cbv, by decide, by cbv⟩
    obtain ⟨-, htoken, hline, -, hcolumn, -⟩ :=
      (rejection_points_at_refused_or_end nestingLimit none 0 _ _ hread).2 _ rfl
    refine ⟨_, hread, rfl, hopen, htoken, ?_, ?_⟩
    · rw [hline]
      cbv
    · rw [hcolumn hopen]
      cbv
  · have hread : ofSource 9 none 0 "print x y" = .error
        ⟨.unexpected (.endOfPrint (.name "x")) ⟨.name "y", ⟨8, 1, 0⟩, ⟨9, 1, 0⟩⟩, none,
          ⟨9, 1, 0⟩⟩ := by cbv
    replace hread := ofSource_of_le hlimit hread (by rintro _ ⟨⟩ ⟨⟩)
    obtain ⟨hplace, htoken, hrefused⟩ :=
      (rejection_points_at_refused_or_end nestingLimit none 0 _ _ hread).1 _ _ rfl
    exact ⟨_, _, hread, rfl, hplace, htoken, hrefused⟩

end Program

end Scriptlet
