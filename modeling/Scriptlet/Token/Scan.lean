import Scriptlet.Decimal.Numeral
import Scriptlet.Text.Blank
import Scriptlet.Token

/-! # Scanning

A program text is cut into lexemes from left to right. Spaces and tabs between lexemes are skipped;
at every other character the first shape that matches makes the token, in the order number,
newline, bracket, reserved word, operator, string, name. A shape reports its token and how many
characters it takes, so the spans of the lexemes and the skipped gaps tile the text. -/

namespace Scriptlet.Token

/-- Whether a character only separates tokens. -/
def isGap (c : Char) : Bool :=
  c == ' ' || c == '\t'

/-- A number: the longest run of digits and points, if it reads as a number. -/
def number? (input : List Char) : Option (Token × Nat) :=
  let run := input.takeWhile Decimal.isNumeric
  (Decimal.ofRun? run).map fun value => (.number value, run.length)

/-- A newline or a bracket: a token of one character. -/
def single? : List Char → Option (Token × Nat)
  | '\n' :: _ => some (.newline, 1)
  | '(' :: _ => some (.openParen, 1)
  | ')' :: _ => some (.closeParen, 1)
  | '{' :: _ => some (.openBrace, 1)
  | '}' :: _ => some (.closeBrace, 1)
  | _ => none

/-- A reserved word, with the space that has to follow it. -/
def keyword? (input : List Char) : Option (Token × Nat) :=
  (Keyword.all.find? fun word => word.characters.isPrefixOf input).map fun word =>
    (.keyword word, word.characters.length)

/-- An operator: the longest spelling that the text starts with. -/
def operator? (input : List Char) : Option (Token × Nat) :=
  (Operator.all.find? fun op => op.spelling.toList.isPrefixOf input).map fun op =>
    (.operator op, op.spelling.toList.length)

/-- A string: all characters up to the next quote, or up to the end when there is none. Both quotes
are counted, so a string that is never closed reaches one place past the end. -/
def text? : List Char → Option (Token × Nat)
  | '"' :: rest =>
    let content := rest.takeWhile (· != '"')
    some (.text (String.ofList content), content.length + 2)
  | _ => none

/-- A name: the first character, whatever it is, and all that follow up to a blank. -/
def nameFrom (first : Char) (rest : List Char) : Token × Nat :=
  let tail := rest.takeWhile (! Text.isBlank ·)
  (.name (String.ofList (first :: tail)), tail.length + 1)

/-- The shapes that are tried before a name, in order. -/
def shapes : List (List Char → Option (Token × Nat)) :=
  [number?, single?, keyword?, operator?, text?]

/-- The token at the front of a text that does not start with a gap, and how many characters it
takes. -/
def front (first : Char) (rest : List Char) : Token × Nat :=
  (shapes.findSome? fun shape => shape (first :: rest)).getD (nameFrom first rest)

/-- A number takes at least one character. -/
theorem number?_pos {input : List Char} {found : Token × Nat} (h : number? input = some found) :
    0 < found.2 := by
  simp only [number?, Option.map_eq_some_iff] at h
  obtain ⟨value, hvalue, rfl⟩ := h
  cases hrun : input.takeWhile Decimal.isNumeric with
  | nil => simp [hrun, Decimal.ofRun?] at hvalue
  | cons => simp

/-- A newline or bracket takes one character. -/
theorem single?_eq_one {input : List Char} {found : Token × Nat} (h : single? input = some found) :
    found.2 = 1 := by
  unfold single? at h
  split at h <;> cases h <;> rfl

/-- A reserved word takes at least one character. -/
theorem keyword?_pos {input : List Char} {found : Token × Nat} (h : keyword? input = some found) :
    0 < found.2 := by
  simp only [keyword?, Option.map_eq_some_iff] at h
  obtain ⟨word, -, rfl⟩ := h
  cases word <;> decide

/-- An operator takes at least one character. -/
theorem operator?_pos {input : List Char} {found : Token × Nat} (h : operator? input = some found) :
    0 < found.2 := by
  simp only [operator?, Option.map_eq_some_iff] at h
  obtain ⟨op, -, rfl⟩ := h
  cases op <;> decide

/-- A string takes at least its opening quote. -/
theorem text?_pos {input : List Char} {found : Token × Nat} (h : text? input = some found) :
    0 < found.2 := by
  unfold text? at h
  split at h
  · cases h; simp
  · cases h

/-- Every token takes at least one character. -/
theorem front_pos (first : Char) (rest : List Char) : 0 < (front first rest).2 := by
  unfold front
  cases hfound : shapes.findSome? fun shape => shape (first :: rest) with
  | none => simp [nameFrom]
  | some found =>
    obtain ⟨shape, hmem, hshape⟩ := List.exists_of_findSome?_eq_some hfound
    simp only [shapes, List.mem_cons, List.not_mem_nil, or_false] at hmem
    rcases hmem with rfl | rfl | rfl | rfl | rfl
    · exact number?_pos hshape
    · simp [single?_eq_one hshape]
    · exact keyword?_pos hshape
    · exact operator?_pos hshape
    · exact text?_pos hshape

/-- The place behind a token that takes some characters of a text. -/
def stopAfter (cursor : Cursor) (input : List Char) (taken : Nat) : Cursor :=
  { cursor.advance (input.take taken) with offset := cursor.offset + taken }

/-- The lexemes of a text that starts at a place, and the place where it ends. -/
def scanFrom (cursor : Cursor) (input : List Char) : List Lexeme × Cursor :=
  match input with
  | [] => ([], cursor)
  | first :: rest =>
    if isGap first then scanFrom (cursor.step first) rest
    else
      let found := front first rest
      let stop := stopAfter cursor (first :: rest) found.2
      let others := scanFrom stop ((first :: rest).drop found.2)
      (⟨found.1, cursor, stop⟩ :: others.1, others.2)
termination_by input.length
decreasing_by
  · simp
  · have := front_pos first rest
    simp only [List.length_drop, List.length_cons]
    omega

/-- The lexemes of a program text, and the place where it ends. -/
def scan (source : String) : List Lexeme × Cursor :=
  scanFrom {} source.toList

/-- The lexemes of a program text. -/
def lexemes (source : String) : List Lexeme :=
  (scan source).1

end Scriptlet.Token
