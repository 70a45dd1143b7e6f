import Mathlib
import Scriptlet.Proofs.Shapes
import Scriptlet.Proofs.Spelling

/-! # The text of a tree is read back as the tree

The text of an expression has parentheses around everything with parts, so it can be cut into its
tokens and put together again whatever stands behind it, as long as no numeral goes on.

* `Token.IsFront text behind token`: in front of what is behind it, a text is cut off as one token.
* `Program.ReadsBack`: a text is cut into lexemes that derive a tree, up to positions and handles.
* `Expr.IsRenderable`: trees whose texts are read back.
* `ofSource_render`: the text of such a tree is a program of one statement, the tree itself. -/

namespace Scriptlet

/-! ## The characters of numbers -/

namespace Decimal

/-- Whether a number is finite, and positive or the positive zero. -/
def isUnsigned (number : Float) : Bool :=
  match number.toModel.unpack with
  | .zero .positive | .finite .positive .. => true
  | _ => false

/-- The digits of a natural number are numeric. -/
theorem isNumeric_of_mem_digitsOf {value : Nat} {c : Char} (h : c ∈ digitsOf value) :
    isNumeric c = true := by
  have hdigit : c.isDigit = true := Nat.isDigit_of_mem_toDigits (by decide) (by decide) h
  rw [isNumeric, hdigit, Bool.true_or]

/-- A run of the digit zero is numeric. -/
theorem isNumeric_of_mem_zeroDigits {count : Nat} {c : Char} (h : c ∈ zeroDigits count) :
    isNumeric c = true := by
  rw [List.eq_of_mem_replicate h]
  decide

/-- Without exponent, a decimal is made of digits and a point. -/
theorem isNumeric_of_mem_positional {decimal : Scaled} {c : Char} (h : c ∈ positional decimal) :
    isNumeric c = true := by
  unfold positional at h
  dsimp only at h
  -- without a point, with a zero before it, or with the digits cut in two
  split at h
  · rcases List.mem_append.1 h with h | h
    · exact isNumeric_of_mem_digitsOf h
    · exact isNumeric_of_mem_zeroDigits h
  · split at h
    · simp only [List.mem_append, List.mem_cons, List.not_mem_nil, or_false] at h
      rcases h with ((rfl | rfl) | h) | h
      · decide
      · decide
      · exact isNumeric_of_mem_zeroDigits h
      · exact isNumeric_of_mem_digitsOf h
    · simp only [List.mem_append, List.mem_singleton] at h
      rcases h with (h | rfl) | h
      · exact isNumeric_of_mem_digitsOf (List.mem_of_mem_take h)
      · decide
      · exact isNumeric_of_mem_digitsOf (List.mem_of_mem_drop h)

/-- Without sign, a printed number is made of digits and a point. -/
theorem isNumeric_of_mem_printed {number : Float} (hunsigned : isUnsigned number = true) {c : Char}
    (h : c ∈ (printed number).toList) : isNumeric c = true := by
  unfold isUnsigned at hunsigned
  unfold printed at h
  -- zero is printed as one digit, and a finite number without a sign
  split at hunsigned
  · rename_i hzero
    rw [hzero] at h
    simp only [signText, List.nil_append, String.toList_ofList, List.mem_singleton] at h
    rw [h]
    decide
  · rename_i hfinite
    rw [hfinite] at h
    simp only [signText, List.nil_append, String.toList_ofList] at h
    exact isNumeric_of_mem_positional h
  · cases hunsigned

/-- In front of a character of another sort, no numeral goes on. -/
theorem not_isNumeric_of_head? {first : Char} (hfirst : isNumeric first = false)
    (behind : List Char) : ∀ c, (first :: behind).head? = some c → isNumeric c = false := by
  rintro c ⟨⟩
  exact hfirst

end Decimal

/-! ## Tokens in front of other text -/

namespace Token

/-- In front of what is behind it, a text is cut off as one token. -/
def IsFront (text behind : List Char) (token : Token) : Prop :=
  ∃ first rest, text = first :: rest ∧ ¬ isGap first = true ∧
    front first (rest ++ behind) = (token, text.length)

/-- An opening parenthesis is one token, whatever is behind it. -/
theorem isFront_openParen (behind : List Char) : IsFront ['('] behind .openParen :=
  ⟨'(', [], rfl, by decide, rfl⟩

/-- A closing parenthesis is one token, whatever is behind it. -/
theorem isFront_closeParen (behind : List Char) : IsFront [')'] behind .closeParen :=
  ⟨')', [], rfl, by decide, rfl⟩

/-- The word for types is one token, whatever is behind it. -/
theorem isFront_typeOf (behind : List Char) :
    IsFront Keyword.typeOf.characters behind (.keyword .typeOf) :=
  ⟨'t', "ypeof ".toList, rfl, by decide, rfl⟩

/-- An operator is cut off in front of a space. -/
theorem isFront_operator (op : Operator) (behind : List Char) :
    IsFront op.spelling.toList (' ' :: behind) (.operator op) := by
  cases op <;> exact ⟨_, _, rfl, by decide, rfl⟩

/-- An operator in front of an operand is found, unless it could go on as another one. -/
theorem operator?_unary {op : Operator} (hunary : op.isUnary = true) {next : Char}
    (hnext : next ≠ '=') (behind : List Char) :
    operator? (op.spelling.toList ++ next :: behind) =
      some (.operator op, op.spelling.toList.length) := by
  have hnot : ('=' == next) = false := by simpa using Ne.symm hnext
  cases op with
  | plus | minus | logicalNot =>
    simp [operator?, Operator.all, Operator.spelling, List.isPrefixOf, hnot]
  | _ => cases hunary

/-- What is neither a number nor a single character nor a reserved word is cut off as an
operator. -/
theorem front_of_operator? {first : Char} {rest : List Char} {found : Token × Nat}
    (hnumber : number? (first :: rest) = none) (hsingle : single? (first :: rest) = none)
    (hkeyword : keyword? (first :: rest) = none) (h : operator? (first :: rest) = some found) :
    front first rest = found := by
  simp only [front, shapes, List.findSome?_cons, hnumber, hsingle, hkeyword, h]
  rfl

/-- A unary operator is one token, unless an equals sign is behind it. -/
theorem isFront_unary {op : Operator} (hunary : op.isUnary = true) {next : Char}
    (hnext : next ≠ '=') (behind : List Char) :
    IsFront op.spelling.toList (next :: behind) (.operator op) := by
  have hfound := operator?_unary hunary hnext behind
  cases op with
  | plus | minus | logicalNot =>
    -- no earlier shape begins with the character of the operator
    exact ⟨_, [], rfl, by decide, front_of_operator? rfl rfl rfl hfound⟩
  | _ => cases hunary

/-- A numeral is cut off where it does not go on. -/
theorem isFront_number {run behind : List Char} {value : Float}
    (hrun : ∀ c ∈ run, Decimal.isNumeric c = true) (hvalue : Decimal.ofRun? run = some value)
    (hbehind : ∀ c, behind.head? = some c → Decimal.isNumeric c = false) :
    IsFront run behind (.number value) := by
  cases run with
  | nil => cases hvalue
  | cons first rest =>
    have hnumeric := hrun first List.mem_cons_self
    refine ⟨first, rest, rfl, ?_, ?_⟩
    · intro hgap
      simp only [isGap, Bool.or_eq_true, beq_iff_eq] at hgap
      rcases hgap with rfl | rfl <;> cases hnumeric
    -- the run of numeric characters ends where it should, and all of it is the number
    · have hfound : number? (first :: (rest ++ behind)) =
          some (.number value, (first :: rest).length) := by
        rw [← List.cons_append, number?, takeWhile_append_eq hrun hbehind, hvalue]
        rfl
      simp only [front, shapes, List.findSome?_cons, hfound]
      rfl

/-- A string is cut off behind its second quote. -/
theorem isFront_text {content : List Char} (hcontent : '"' ∉ content) (behind : List Char) :
    IsFront ('"' :: (content ++ ['"'])) behind (.text (String.ofList content)) := by
  refine ⟨'"', content ++ ['"'], rfl, by decide, ?_⟩
  have htake : (content ++ ['"'] ++ behind).takeWhile (· != '"') = content := by
    rw [List.append_assoc]
    exact takeWhile_append_eq (bne_of_not_mem hcontent) (by simp)
  rw [front_quote, htake, List.length_cons, List.length_append, List.length_singleton]

/-! ### Names -/

/-- A text is a name: in front of a space, it is read as the name that it spells, and as nothing
else. -/
def IsName (spelling : String) : Prop :=
  (lexemes (spelling ++ " ")).map Lexeme.token = [.name spelling]

/-- What has another shape is no name. -/
theorem findSome?_shapes_of_name {first : Char} {rest : List Char} {spelling : String}
    (h : (front first rest).1 = .name spelling) :
    shapes.findSome? (fun shape => shape (first :: rest)) = none := by
  cases hfound : shapes.findSome? fun shape => shape (first :: rest) with
  | none => rfl
  | some found =>
    rw [front, hfound, Option.getD_some] at h
    obtain ⟨shape, hmem, hshape⟩ := List.exists_of_findSome?_eq_some hfound
    -- every other shape makes a token of its own sort
    simp only [shapes, List.mem_cons, List.not_mem_nil, or_false] at hmem
    rcases hmem with rfl | rfl | rfl | rfl | rfl
    · simp only [number?, Option.map_eq_some_iff] at hshape
      obtain ⟨value, -, rfl⟩ := hshape
      cases h
    · rcases single?_eq_some hshape with ⟨-, rfl⟩ | ⟨hbracket, -⟩
      · cases h
      · rw [h] at hbracket
        simp [brackets] at hbracket
    · obtain ⟨word, rfl, -⟩ := keyword?_eq_some hshape
      cases h
    · obtain ⟨op, rfl, -⟩ := operator?_eq_some hshape
      cases h
    · unfold text? at hshape
      split at hshape
      · cases hshape
        cases h
      · cases hshape

/-- A name begins with the character where it was found, and has no blanks behind it. -/
theorem nameFrom_of_name {first : Char} {rest : List Char} {spelling : String}
    (h : (front first rest).1 = .name spelling) :
    spelling.toList = first :: rest.takeWhile (! Text.isBlank ·) := by
  rw [front, findSome?_shapes_of_name h, Option.getD_none, nameFrom] at h
  cases h
  rw [String.toList_ofList]

/-- No name begins with a gap. -/
theorem not_gap_of_name {cursor : Cursor} {input : List Char} {lexeme : Lexeme}
    (hmem : lexeme ∈ (scanFrom cursor input).1) {first : Char} {rest : List Char}
    {spelling : String} (htoken : lexeme.token = .name spelling)
    (hspelling : spelling.toList = first :: rest) :
    ¬ isGap first = true := by
  induction cursor, input using scanFrom_induction with
  | nil cursor =>
    rw [scanFrom_nil] at hmem
    cases hmem
  | gap cursor c others hgap ih =>
    rw [scanFrom_gap hgap] at hmem
    exact ih hmem
  | token cursor c others hgap ih =>
    rw [scanFrom_token hgap] at hmem
    rcases List.mem_cons.1 hmem with rfl | hmem
    -- a name is cut off with its first character, which was no gap
    · have hfound := nameFrom_of_name htoken
      rw [hspelling] at hfound
      rw [(List.cons.inj hfound).1]
      exact hgap
    · exact ih hmem

/-- A spelling without spaces inside that begins a text with a space behind it does not reach behind
the space. -/
theorem prefix_of_prefix_gap {spelling text behind : List Char}
    (hspelling : ' ' ∉ spelling.dropLast)
    (h : spelling <+: text ++ ' ' :: behind) : spelling <+: text ++ [' '] := by
  have hwhole : text ++ [' '] <+: text ++ ' ' :: behind := ⟨behind, by simp⟩
  by_cases hlength : spelling.length ≤ (text ++ [' ']).length
  · exact List.prefix_of_prefix_length_le h hwhole hlength
  · -- otherwise the space would stand inside the spelling
    obtain ⟨more, rfl⟩ := List.prefix_of_prefix_length_le hwhole h (by omega)
    have hmore : more ≠ [] := by
      rintro rfl
      simp at hlength
    rw [List.dropLast_append_of_ne_nil hmore] at hspelling
    simp at hspelling

/-- A shape that does not match in front of a space does not match in front of more. -/
theorem shape_gap {first : Char} {rest : List Char}
    {shape : List Char → Option (Token × Nat)} (hmem : shape ∈ shapes)
    (hnone : shape (first :: (rest ++ [' '])) = none) (behind : List Char) :
    shape (first :: (rest ++ ' ' :: behind)) = none := by
  simp only [shapes, List.mem_cons, List.not_mem_nil, or_false] at hmem
  rcases hmem with rfl | rfl | rfl | rfl | rfl
  · have hstop : ' ' ∈ first :: (rest ++ [' ']) := by simp
    -- the run of a number ends at the space, whatever is behind it
    have htake := takeWhile_append_of_mem hstop (by decide : Decimal.isNumeric ' ' = false) behind
    simp only [List.cons_append, List.append_assoc, List.nil_append] at htake
    rw [number?, htake]
    exact hnone
  · rw [single?_cons first _ (rest ++ [' '])]
    exact hnone
  · rw [keyword?, Option.map_eq_none_iff, List.find?_eq_none] at hnone ⊢
    intro word hword hbegins
    -- a space in a word could only be its last character, so nothing behind it matters
    have hinside : ' ' ∉ word.characters.dropLast := by cases word <;> decide
    rw [List.isPrefixOf_iff_prefix, ← List.cons_append] at hbegins
    exact hnone word hword (List.isPrefixOf_iff_prefix.2 (prefix_of_prefix_gap hinside hbegins))
  · rw [operator?, Option.map_eq_none_iff, List.find?_eq_none] at hnone ⊢
    intro op hop hbegins
    have hinside : ' ' ∉ op.spelling.toList.dropLast := by cases op <;> decide
    rw [List.isPrefixOf_iff_prefix, ← List.cons_append] at hbegins
    exact hnone op hop (List.isPrefixOf_iff_prefix.2 (prefix_of_prefix_gap hinside hbegins))
  · apply text?_of_ne_quote
    rintro rfl
    cases hnone

/-- What is a name in front of one space is cut off as a name in front of a space and more. -/
theorem isFront_name {spelling : String} (h : IsName spelling) (behind : List Char) :
    IsFront spelling.toList (' ' :: behind) (.name spelling) := by
  unfold IsName lexemes scan at h
  rw [String.toList_append] at h
  obtain ⟨lexeme, hlexemes, htoken⟩ := List.map_eq_singleton_iff.1 h
  cases hspelling : spelling.toList with
  | nil =>
    rw [hspelling] at hlexemes
    have hblank : (scanFrom {} ([] ++ " ".toList)).1 = [] := by
      show (scanFrom {} [' ']).1 = []
      rw [scanFrom_gap (by decide), scanFrom_nil]
    rw [hblank] at hlexemes
    cases hlexemes
  | cons first rest =>
    -- the one lexeme is the name itself, so the name does not begin with a gap
    have hgap : ¬ isGap first = true :=
      not_gap_of_name (hlexemes ▸ List.mem_singleton_self lexeme) htoken hspelling
    rw [hspelling] at hlexemes
    change (scanFrom {} (first :: (rest ++ [' ']))).1 = [lexeme] at hlexemes
    rw [scanFrom_token hgap] at hlexemes
    obtain ⟨rfl, -⟩ := List.cons.inj hlexemes
    have hfound := nameFrom_of_name htoken
    rw [hspelling] at hfound
    -- all characters behind the first are taken, so none of them is blank
    have hrest := (List.cons.inj hfound).2
    have hblank : ∀ c ∈ rest, (! Text.isBlank c) = true := by
      intro c hmem
      rw [hrest] at hmem
      exact List.all_eq_true.1 List.all_takeWhile c hmem
    have hnone := List.findSome?_eq_none_iff.1 (findSome?_shapes_of_name htoken)
    have hnone' : shapes.findSome? (fun shape => shape (first :: (rest ++ ' ' :: behind))) = none :=
      List.findSome?_eq_none_iff.2 fun shape hmem => shape_gap hmem (hnone shape hmem) behind
    refine ⟨first, rest, rfl, hgap, ?_⟩
    have htake : (rest ++ ' ' :: behind).takeWhile (! Text.isBlank ·) = rest :=
      takeWhile_append_eq hblank (by simp; decide)
    rw [front, hnone', Option.getD_none, nameFrom, htake, ← hspelling, String.ofList_toList,
      hspelling]
    rfl

/-! ### Runs of tokens -/

/-- In front of what is behind it, a text is cut into lexemes. -/
def Scans (cursor : Cursor) (text behind : List Char) (lexemes : List Lexeme) : Prop :=
  (scanFrom cursor (text ++ behind)).1 = lexemes ++ (scanFrom (cursor.advance text) behind).1

/-- Two texts, each cut in front of what is behind it, are cut one after the other. -/
theorem Scans.append {cursor : Cursor} {text text' behind : List Char}
    {lexemes others : List Lexeme}
    (h : Scans cursor text (text' ++ behind) lexemes)
    (h' : Scans (cursor.advance text) text' behind others) :
    Scans cursor (text ++ text') behind (lexemes ++ others) := by
  rw [Scans] at h h' ⊢
  rw [List.append_assoc, h, h', Cursor.advance_append, List.append_assoc]

/-- A space is cut into no lexemes. -/
theorem scans_gap (cursor : Cursor) (behind : List Char) : Scans cursor [' '] behind [] := by
  rw [Scans, List.singleton_append, scanFrom_gap (by decide)]
  rfl

/-- A text that is cut off as one token is cut into one lexeme. -/
theorem IsFront.scans {text behind : List Char} {token : Token} (h : IsFront text behind token)
    (cursor : Cursor) : ∃ lexeme, lexeme.token = token ∧ Scans cursor text behind [lexeme] := by
  obtain ⟨first, rest, rfl, hgap, hfront⟩ := h
  -- the token takes the whole text, so the scan goes on with what is behind it
  refine ⟨⟨token, cursor, cursor.advance (first :: rest)⟩, rfl, ?_⟩
  have hle : (first :: rest).length ≤ (first :: (rest ++ behind)).length := by simp
  rw [Scans, List.cons_append, scanFrom_token hgap, hfront]
  dsimp only
  rw [stopAfter_eq_advance hle, ← List.cons_append, List.take_left, List.drop_left]
  rfl

end Token

/-! ## Trees without positions -/

/-- An expression without its positions and without the handles of its strings. -/
def Expr.bare : Expr → Expr
  | .name spelling _ => .name spelling none
  | .number value _ => .number value none
  | .string value _ => .string ⟨value.content, 0⟩ none
  | .unary op operand _ => .unary op operand.bare none
  | .binary left op right _ => .binary left.bare op right.bare none
  | .trailing operand op _ => .trailing operand.bare op none
  | .typeOf operand _ => .typeOf operand.bare none
  | .misplaced form rendering _ => .misplaced form rendering none
  | .absent => .absent

namespace Program

open Token

/-- In front of what is behind it, a text is cut into lexemes that derive an expression of a rank,
up to positions and handles. -/
def ReadsBack (origin : Origin) (rank : Nat) (text behind : List Char) (expr : Expr) : Prop :=
  ∀ cursor, ∃ lexemes read, Scans cursor text behind lexemes ∧
    ExprDerivation origin rank lexemes read ∧ read.bare = expr.bare

variable {origin : Origin} {text behind : List Char} {operand left right : Expr}

/-- A name is read back as the name that it spells. -/
theorem readsBack_name {spelling : String} (h : IsFront text behind (.name spelling))
    (place : Option Position) : ReadsBack origin 10 text behind (.name spelling place) := by
  intro cursor
  obtain ⟨lexeme, htoken, hscans⟩ := h.scans cursor
  exact ⟨_, _, hscans, .name htoken, rfl⟩

/-- A number is read back as itself. -/
theorem readsBack_number {value : Float} (h : IsFront text behind (.number value))
    (place : Option Position) : ReadsBack origin 10 text behind (.number value place) := by
  intro cursor
  obtain ⟨lexeme, htoken, hscans⟩ := h.scans cursor
  exact ⟨_, _, hscans, .number htoken, rfl⟩

/-- A string is read back with the same content. -/
theorem readsBack_text {value : StringValue} (h : IsFront text behind (.text value.content))
    (place : Option Position) : ReadsBack origin 10 text behind (.string value place) := by
  intro cursor
  obtain ⟨lexeme, htoken, hscans⟩ := h.scans cursor
  exact ⟨_, _, hscans, .text htoken, rfl⟩

/-- An operand is an expression of the lowest rank as well. -/
theorem ReadsBack.lower {expr : Expr} (h : ReadsBack origin 10 text behind expr) :
    ReadsBack origin 1 text behind expr := by
  intro cursor
  obtain ⟨lexemes, read, hscans, hread, hbare⟩ := h cursor
  exact ⟨lexemes, read, hscans, hread.lower (by decide) (by decide) (by decide), hbare⟩

/-- A unary operator before a text that is read back is read back. -/
theorem ReadsBack.unary {op : Operator} (hunary : op.isUnary = true)
    (hop : IsFront op.spelling.toList (text ++ behind) (.operator op))
    (h : ReadsBack origin 10 text behind operand) (place : Option Position) :
    ReadsBack origin 10 (op.spelling.toList ++ text) behind (.unary op operand place) := by
  intro cursor
  obtain ⟨lexeme, htoken, hscans⟩ := hop.scans cursor
  obtain ⟨inside, read, hinside, hread, hbare⟩ := h (cursor.advance op.spelling.toList)
  exact ⟨_, _, hscans.append hinside, .unary htoken hunary hread, by rw [Expr.bare, hbare]; rfl⟩

/-- The word for types before a text that is read back is read back. -/
theorem ReadsBack.typeOf (h : ReadsBack origin 10 text behind operand) (place : Option Position) :
    ReadsBack origin 10 (Keyword.typeOf.characters ++ text) behind (.typeOf operand place) := by
  intro cursor
  obtain ⟨lexeme, htoken, hscans⟩ := (isFront_typeOf (text ++ behind)).scans cursor
  obtain ⟨inside, read, hinside, hread, hbare⟩ := h (cursor.advance Keyword.typeOf.characters)
  exact ⟨_, _, hscans.append hinside, .typeOf htoken hread, by rw [Expr.bare, hbare]; rfl⟩

/-- Parentheses make an operand of every expression. -/
theorem ReadsBack.group {expr : Expr} (h : ReadsBack origin 1 text (')' :: behind) expr) :
    ReadsBack origin 10 ('(' :: (text ++ [')'])) behind expr := by
  intro cursor
  obtain ⟨opening, hopening, hopens⟩ := (isFront_openParen (text ++ [')'] ++ behind)).scans cursor
  obtain ⟨inside, read, hinside, hread, hbare⟩ := h (cursor.advance ['('])
  obtain ⟨closing, hclosing, hcloses⟩ :=
    (isFront_closeParen behind).scans ((cursor.advance ['(']).advance text)
  exact ⟨_, _, hopens.append (hinside.append hcloses), .group hopening hread hclosing, hbare⟩

/-- An operator between two operands puts them together, whatever its rank. -/
theorem exprDerivation_of_operands {lexeme : Lexeme} {op : Operator} {before others : List Lexeme}
    (htoken : lexeme.token = .operator op) (hbinary : op.isBinary = true)
    (hleft : ExprDerivation origin 10 before left)
    (hright : ExprDerivation origin 10 others right) :
    ExprDerivation origin 1 (before ++ lexeme :: others)
      (.binary left op right (origin.place lexeme)) := by
  -- operands are of the highest rank, which is high enough on both sides of every operator
  cases hop : op.isAssignment with
  | true =>
    exact .assignment htoken hop (hleft.lower (by decide) (by decide) (by decide))
      (hright.lower (by decide) (by decide) (by decide))
  | false =>
    obtain ⟨hlow, hhigh⟩ := Operator.rank_of_isBinary hbinary hop
    have hboth := ExprDerivation.binary hlow hhigh htoken hbinary rfl
      (hleft.lower (by omega) (by omega) (by decide))
      (hright.lower (by omega) (by omega) (by decide))
    exact hboth.lower (by decide) (by omega) (by omega)

/-- Two texts that are read back, with an operator between them, are read back. -/
theorem ReadsBack.binary {op : Operator} {text' : List Char} (hbinary : op.isBinary = true)
    (hleft : ∀ behind, ReadsBack origin 10 text (' ' :: behind) left)
    (hright : ReadsBack origin 10 text' behind right) (place : Option Position) :
    ReadsBack origin 1 (text ++ ([' '] ++ (op.spelling.toList ++ ([' '] ++ text')))) behind
      (.binary left op right place) := by
  intro cursor
  obtain ⟨before, read, hbefore, hread, hbare⟩ := hleft _ cursor
  obtain ⟨lexeme, htoken, hop⟩ := (isFront_operator op (text' ++ behind)).scans
    ((cursor.advance text).advance [' '])
  obtain ⟨others, read', hothers, hread', hbare'⟩ := hright
    ((((cursor.advance text).advance [' ']).advance op.spelling.toList).advance [' '])
  -- five pieces: the left side, a space, the operator, a space and the right side
  have hscans := hbefore.append
    ((scans_gap _ _).append (hop.append ((scans_gap _ _).append hothers)))
  exact ⟨_, _, hscans, exprDerivation_of_operands htoken hbinary hread hread', by
    rw [Expr.bare, hbare, hbare']; rfl⟩

end Program

/-! ## Whole trees -/

namespace Expr

/-- A tree whose text is read back. Numbers have no sign and are what their numerals stand for,
strings hold no quotes, operators stand where they have a meaning, and names stand only to the left
of operators. -/
inductive IsRenderable : Expr → Prop where
  /-- A number. -/
  | number {value : Float} {place : Option Position} (hunsigned : Decimal.isUnsigned value = true)
      (hreads : Decimal.ofRun? (Decimal.printed value).toList = some value) :
      IsRenderable (.number value place)
  /-- A string. -/
  | string {value : StringValue} {place : Option Position} (hquote : '"' ∉ value.content.toList) :
      IsRenderable (.string value place)
  /-- An operator in front of its operand. -/
  | unary {op : Operator} {operand : Expr} {place : Option Position} (hunary : op.isUnary = true)
      (hoperand : IsRenderable operand) : IsRenderable (.unary op operand place)
  /-- The name of the kind of an operand. -/
  | typeOf {operand : Expr} {place : Option Position} (hoperand : IsRenderable operand) :
      IsRenderable (.typeOf operand place)
  /-- An operator between its operands. -/
  | binary {left right : Expr} {op : Operator} {place : Option Position}
      (hbinary : op.isBinary = true) (hleft : IsRenderable left) (hright : IsRenderable right) :
      IsRenderable (.binary left op right place)
  /-- An operator between a name and an operand. -/
  | named {spelling : String} {right : Expr} {op : Operator} {place place' : Option Position}
      (hname : Token.IsName spelling) (hbinary : op.isBinary = true)
      (hright : IsRenderable right) : IsRenderable (.binary (.name spelling place) op right place')

variable {expr : Expr}

/-- What is renderable has nothing missing. -/
theorem IsRenderable.isComplete (h : expr.IsRenderable) : expr.isComplete = true := by
  induction h with
  | number => rfl
  | string => rfl
  | unary _ _ ih => exact ih
  | typeOf _ ih => exact ih
  | binary _ _ _ ihleft ihright => rw [Expr.isComplete, ihleft, ihright]; rfl
  | named _ _ _ ih => rw [Expr.isComplete, ih]; rfl

/-! ### The texts of trees -/

/-- The text of a string is its content between quotes. -/
theorem toList_render_string (value : StringValue) (place : Option Position) :
    (Expr.string value place).render.toList = '"' :: (value.content.toList ++ ['"']) := by
  simp [Expr.render]

/-- The text of a unary expression is operator and operand in parentheses. -/
theorem toList_render_unary (op : Operator) (operand : Expr) (place : Option Position) :
    (Expr.unary op operand place).render.toList =
      '(' :: ((op.spelling.toList ++ operand.render.toList) ++ [')']) := by
  simp [Expr.render]

/-- The text of a type query is the word and the operand in parentheses. -/
theorem toList_render_typeOf (operand : Expr) (place : Option Position) :
    (Expr.typeOf operand place).render.toList =
      '(' :: ((Keyword.typeOf.characters ++ operand.render.toList) ++ [')']) := by
  simp [Expr.render, Keyword.characters, Keyword.word]

/-- The text of a binary expression is both operands around the operator, in parentheses. -/
theorem toList_render_binary (left : Expr) (op : Operator) (right : Expr)
    (place : Option Position) :
    (Expr.binary left op right place).render.toList =
      '(' :: ((left.render.toList ++
        ([' '] ++ (op.spelling.toList ++ ([' '] ++ right.render.toList)))) ++ [')']) := by
  simp [Expr.render]

/-- No text of a tree can be taken for the rest of an operator in front of it. -/
theorem IsRenderable.exists_first (h : expr.IsRenderable) :
    ∃ first rest, expr.render.toList = first :: rest ∧ first ≠ '=' := by
  cases h with
  | @number value _ hunsigned hreads =>
    rw [Expr.render]
    cases hprinted : (Decimal.printed value).toList with
    | nil =>
      rw [hprinted] at hreads
      cases hreads
    | cons first rest =>
      refine ⟨first, rest, rfl, ?_⟩
      -- no number is printed with an equals sign
      rintro rfl
      have hnumeric := Decimal.isNumeric_of_mem_printed hunsigned (hprinted ▸ List.mem_cons_self)
      cases hnumeric
  | string => exact ⟨_, _, toList_render_string _ _, by decide⟩
  | unary => exact ⟨_, _, toList_render_unary _ _ _, by decide⟩
  | typeOf => exact ⟨_, _, toList_render_typeOf _ _, by decide⟩
  | binary => exact ⟨_, _, toList_render_binary _ _ _ _, by decide⟩
  | named => exact ⟨_, _, toList_render_binary _ _ _ _, by decide⟩

open Program in
/-- **The text of a tree is read back as the tree.** By induction on the tree; parentheses, spaces
and quotes keep every part apart from what is behind it, whatever that is, unless a numeral goes
on. -/
theorem IsRenderable.readsBack (h : expr.IsRenderable) (origin : Origin) {behind : List Char}
    (hbehind : ∀ c, behind.head? = some c → Decimal.isNumeric c = false) :
    ReadsBack origin 10 expr.render.toList behind expr := by
  have hspace := Decimal.not_isNumeric_of_head? (by decide : Decimal.isNumeric ' ' = false)
  have hparen := Decimal.not_isNumeric_of_head? (by decide : Decimal.isNumeric ')' = false)
  induction h generalizing behind with
  | number hunsigned hreads =>
    have hrun := fun c => Decimal.isNumeric_of_mem_printed (c := c) hunsigned
    exact readsBack_number (Token.isFront_number hrun hreads hbehind) _
  | @string value place hquote =>
    have hfront := Token.isFront_text hquote behind
    rw [String.ofList_toList] at hfront
    rw [toList_render_string]
    exact readsBack_text hfront place
  | @unary op operand place hunary hoperand ih =>
    -- the operator touches its operand, which must not make it a longer one
    obtain ⟨first, rest, hfirst, hnot⟩ := hoperand.exists_first
    have hop := Token.isFront_unary hunary hnot (rest ++ ')' :: behind)
    rw [← List.cons_append, ← hfirst] at hop
    rw [toList_render_unary]
    exact ((ih (hparen behind)).unary hunary hop place).lower.group
  | @typeOf operand place hoperand ih =>
    rw [toList_render_typeOf]
    exact ((ih (hparen behind)).typeOf place).lower.group
  | binary hbinary _ _ ihleft ihright =>
    rw [toList_render_binary]
    have hleft := fun behind => ihleft (hspace behind)
    exact (ReadsBack.binary hbinary hleft (ihright (hparen behind)) _).group
  | @named spelling right op place place' hname hbinary _ ih =>
    rw [toList_render_binary]
    have hleft (behind : List Char) :
        ReadsBack origin 10 (Expr.name spelling place).render.toList (' ' :: behind)
          (.name spelling place) :=
      readsBack_name (Token.isFront_name hname behind) place
    exact (ReadsBack.binary hbinary hleft (ih (hparen behind)) place').group

end Expr

namespace Program

/-- A text whose lexemes derive a program is read as it, unless it is nested too deeply. -/
theorem ofSource_of_derivation {filename : Option String} {firstHandle : Nat} {source : String}
    {program : List Stmt}
    (h : Derivation ⟨filename, firstHandle⟩ (Token.lexemes source) program) (limit : Nat) :
    (∃ rejection, ofSource limit filename firstHandle source = .error rejection ∧
        rejection.fault = .tooDeep) ∨
      ofSource limit filename firstHandle source = .ok program := by
  by_cases hdeep : ofLexemes ⟨filename, firstHandle⟩ limit (Token.lexemes source) = .error .tooDeep
  · refine .inl ⟨⟨.tooDeep, filename, (Token.scan source).2⟩, ?_, rfl⟩
    rw [Token.lexemes] at hdeep
    rw [ofSource, hdeep]
  · exact .inr (ofSource_eq_ok_iff.2 ((ofLexemes_iff_of_ne_tooDeep hdeep program).2 h))

end Program

/-- **Rendering is undone by reading.** A renderable tree has a text, and that text is a program of
one statement, which is the tree itself up to positions and handles. It is read under every limit
that its nesting does not exceed, and there is a limit from which on it is always read. -/
theorem ofSource_render {expr : Expr} (h : expr.IsRenderable) (filename : Option String)
    (firstHandle : Nat) :
    ∃ text read place, expr.render? = some text ∧ read.bare = expr.bare ∧
      (∀ limit,
        (∃ rejection, Program.ofSource limit filename firstHandle text = .error rejection ∧
          rejection.fault = .tooDeep) ∨
        Program.ofSource limit filename firstHandle text = .ok [.expression read place]) ∧
      ∃ bound, ∀ limit, bound < limit →
        Program.ofSource limit filename firstHandle text = .ok [.expression read place] := by
  have hend : ∀ c, ([] : List Char).head? = some c → Decimal.isNumeric c = false := nofun
  obtain ⟨lexemes, read, hscans, hread, hbare⟩ :=
    (h.readsBack ⟨filename, firstHandle⟩ hend).lower {}
  have hlexemes : Token.lexemes expr.render = lexemes := by
    rw [Token.Scans, List.append_nil, Token.scanFrom_nil, List.append_nil] at hscans
    exact hscans
  obtain ⟨first, others, rfl, -⟩ := hread.exists_first
  -- the tree stands as one statement, up to the end of the text
  have hderivation : Program.Derivation ⟨filename, firstHandle⟩ (Token.lexemes expr.render)
      [.expression read (Program.Origin.place ⟨filename, firstHandle⟩ first)] := by
    rw [hlexemes, ← List.append_nil (first :: others)]
    exact .cons (.expression hread nofun) .nil
  refine ⟨expr.render, read, _, by rw [Expr.render?, h.isComplete]; rfl, hbare,
    Program.ofSource_of_derivation hderivation, (Token.lexemes expr.render).length + 1, ?_⟩
  intro limit hlimit
  exact Program.ofSource_eq_ok_iff.2 (Program.ofLexemes_of_derivation hderivation hlimit)

/-- An assignment to a name, with operators of both sorts, a number and a string of two lines. -/
theorem ofSource_render_of_assignment :
    let product : Expr :=
      .binary (.number 1.5 none) .times (.typeOf (.string ⟨"a\nb", 0⟩ none) none) none
    let expr : Expr := .binary (.name "x" none) .addAssign (.unary .minus product none) none
    expr.render? = some "(x += (-(1.5 * (typeof \"a\nb\"))))" ∧
      ∃ text read place, expr.render? = some text ∧ read.bare = expr.bare ∧
        (∀ limit, (∃ rejection, Program.ofSource limit none 0 text = .error rejection ∧
            rejection.fault = .tooDeep) ∨
          Program.ofSource limit none 0 text = .ok [.expression read place]) ∧
        ∃ bound, ∀ limit, bound < limit →
          Program.ofSource limit none 0 text = .ok [.expression read place] := by
  intro product expr
  have hnumber : (Expr.number 1.5 none).IsRenderable :=
    .number (by decide +kernel) (by decide +kernel)
  have hstring : (Expr.string ⟨"a\nb", 0⟩ none).IsRenderable := .string (by decide)
  have hname : Token.IsName "x" := by unfold Token.IsName; cbv
  have hexpr : expr.IsRenderable :=
    .named hname (by decide) (.unary (by decide) (.binary (by decide) hnumber (.typeOf hstring)))
  exact ⟨by decide +kernel, ofSource_render hexpr none 0⟩

end Scriptlet
