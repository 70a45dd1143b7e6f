import Scriptlet.Proofs.Spelling
import Scriptlet.Proofs.Tiling

/-! # Where the nodes of a program stand

Every node of a program that was read from a text carries the position of the lexeme that it was
made of: an operator that of its spelling, a statement that of its first word. So the position of a
node leads back to the characters of the text.

* `Expr.IsPlaced` and `Stmt.IsPlaced`: every node stands where its token does.
* `Text.BeginsAt source place text`: the source line of a position, read from its column on, begins
  with a text.
* `Program.arePlaced_of_ofSource`: a program that was read from a text is placed by its lexemes. -/

namespace Scriptlet

/-! ## Placed trees -/

/-- Every node of an expression stands where its token does. -/
def Expr.IsPlaced (stands : Token → Option Position → Prop) : Expr → Prop
  | .name spelling place => stands (.name spelling) place
  | .number value place => stands (.number value) place
  | .string value place => stands (.text value.content) place
  | .unary op operand place => stands (.operator op) place ∧ operand.IsPlaced stands
  | .typeOf operand place => stands (.keyword .typeOf) place ∧ operand.IsPlaced stands
  | .binary left op right place =>
    stands (.operator op) place ∧ left.IsPlaced stands ∧ right.IsPlaced stands
  | .trailing .. | .misplaced .. | .absent => False

namespace Stmt

/-- Whether a statement is a block. -/
def isBlock : Stmt → Bool
  | .block .. => true
  | _ => false

mutual

/-- Every node of a statement stands where its token does, and the bodies of conditional statements
are blocks. -/
def IsPlaced (stands : Token → Option Position → Prop) : Stmt → Prop
  | .expression expr place => (∃ token, stands token place) ∧ expr.IsPlaced stands
  | .print expr place => stands (.keyword .print) place ∧ expr.IsPlaced stands
  | .ret expr place => stands (.keyword .ret) place ∧ expr.IsPlaced stands
  | .block body place => stands .openBrace place ∧ ArePlaced stands body
  | .cond condition body place =>
    stands (.keyword .cond) place ∧ condition.IsPlaced stands ∧
      body.isBlock = true ∧ body.IsPlaced stands
  | .condElse condition body other place =>
    stands (.keyword .cond) place ∧ condition.IsPlaced stands ∧
      (body.isBlock = true ∧ body.IsPlaced stands) ∧ other.isBlock = true ∧ other.IsPlaced stands
  | .misplaced _ => False

/-- Every node of statements in a row stands where its token does. -/
def ArePlaced (stands : Token → Option Position → Prop) : List Stmt → Prop
  | [] => True
  | first :: rest => first.IsPlaced stands ∧ ArePlaced stands rest

end

end Stmt

variable {stands : Token → Option Position → Prop}

/-- A placed expression has the position of some token. -/
theorem Expr.IsPlaced.exists_stands {expr : Expr} (h : expr.IsPlaced stands) :
    ∃ token, stands token expr.place? := by
  cases expr with
  | name => exact ⟨_, h⟩
  | number => exact ⟨_, h⟩
  | string => exact ⟨_, h⟩
  | unary => exact ⟨_, h.1⟩
  | typeOf => exact ⟨_, h.1⟩
  | binary => exact ⟨_, h.1⟩
  | trailing => exact h.elim
  | misplaced => exact h.elim
  | absent => exact h.elim

/-! ## What is derived is placed -/

namespace Program

/-- Tokens stand where some lexemes do. -/
def Origin.Places (origin : Origin) (stands : Token → Option Position → Prop)
    (lexemes : List Lexeme) : Prop :=
  ∀ lexeme ∈ lexemes, stands lexeme.token (origin.place lexeme)

variable {origin : Origin}

section Places

variable {first : Lexeme} {before behind : List Lexeme}

/-- The first of the lexemes places its token. -/
theorem Origin.Places.head (h : origin.Places stands (first :: behind)) {token : Token}
    (htoken : first.token = token) : stands token (origin.place first) :=
  htoken ▸ h first List.mem_cons_self

/-- The lexemes behind the first place their tokens. -/
theorem Origin.Places.tail (h : origin.Places stands (first :: behind)) :
    origin.Places stands behind :=
  fun lexeme hmem => h lexeme (List.mem_cons_of_mem _ hmem)

/-- The lexemes of a front place their tokens. -/
theorem Origin.Places.left (h : origin.Places stands (before ++ behind)) :
    origin.Places stands before :=
  fun lexeme hmem => h lexeme (List.mem_append_left _ hmem)

/-- The lexemes behind a front place their tokens. -/
theorem Origin.Places.right (h : origin.Places stands (before ++ behind)) :
    origin.Places stands behind :=
  fun lexeme hmem => h lexeme (List.mem_append_right _ hmem)

end Places

/-- What is derived as an expression is placed. -/
theorem ExprDerivation.isPlaced {rank : Nat} {lexemes : List Lexeme} {expr : Expr}
    (h : ExprDerivation origin rank lexemes expr) (hplaces : origin.Places stands lexemes) :
    expr.IsPlaced stands := by
  induction h with
  | name htoken => exact hplaces.head htoken
  | number htoken => exact hplaces.head htoken
  | text htoken => exact hplaces.head htoken
  | group _ _ _ ih => exact ih hplaces.tail.left
  | unary htoken _ _ ih => exact ⟨hplaces.head htoken, ih hplaces.tail⟩
  | typeOf htoken _ ih => exact ⟨hplaces.head htoken, ih hplaces.tail⟩
  | tighter _ _ _ ih => exact ih hplaces
  -- an operator stands in the middle, between the lexemes of its sides
  | binary _ _ htoken _ _ _ _ ihleft ihright =>
    exact ⟨hplaces.right.head htoken, ihleft hplaces.left, ihright hplaces.right.tail⟩
  | assignment htoken _ _ _ ihleft ihright =>
    exact ⟨hplaces.right.head htoken, ihleft hplaces.left, ihright hplaces.right.tail⟩

/-- What is derived as a block is one. -/
theorem BlockDerivation.isBlock {lexemes : List Lexeme} {stmt : Stmt}
    (h : BlockDerivation origin lexemes stmt) : stmt.isBlock = true := by
  cases h
  rfl

mutual

/-- A statement that is derived from lexemes is placed by them. -/
theorem StmtDerivation.isPlaced {lexemes : List Lexeme} {next : Option Token} {stmt : Stmt} :
    StmtDerivation origin lexemes next stmt → origin.Places stands lexemes → stmt.IsPlaced stands
  | .print htoken hexpr _, hplaces => ⟨hplaces.head htoken, hexpr.isPlaced hplaces.tail⟩
  | .ret htoken hexpr _, hplaces => ⟨hplaces.head htoken, hexpr.isPlaced hplaces.tail⟩
  | .cond htoken htest hbody, hplaces =>
    ⟨hplaces.head htoken, htest.isPlaced hplaces.tail.left, hbody.isBlock,
      hbody.isPlaced hplaces.tail.right⟩
  | .condElse htoken htest hbody _ hother, hplaces =>
    ⟨hplaces.head htoken, htest.isPlaced hplaces.tail.left,
      ⟨hbody.isBlock, hbody.isPlaced hplaces.tail.right.left⟩, hother.isBlock,
      hother.isPlaced hplaces.tail.right.right.tail⟩
  | .expression hexpr _, hplaces => ⟨⟨_, hplaces.head rfl⟩, hexpr.isPlaced hplaces⟩

/-- A block that is derived from lexemes is placed by them. -/
theorem BlockDerivation.isPlaced {lexemes : List Lexeme} {stmt : Stmt} :
    BlockDerivation origin lexemes stmt → origin.Places stands lexemes → stmt.IsPlaced stands
  | .block hopening hinside _, hplaces =>
    ⟨hplaces.head hopening, hinside.arePlaced hplaces.tail.left⟩

/-- What is derived as a row of statements is placed. -/
theorem RowDerivation.arePlaced {lexemes : List Lexeme} {next : Option Token} {row : List Stmt} :
    RowDerivation origin lexemes next row → origin.Places stands lexemes →
    Stmt.ArePlaced stands row
  | .nil, _ => trivial
  | .newline _ hrow, hplaces => hrow.arePlaced hplaces.tail
  | .cons hfirst hothers, hplaces =>
    ⟨hfirst.isPlaced hplaces.left, hothers.arePlaced hplaces.right⟩

end

/-- A token has a position of the lexemes of a text. -/
def StandsIn (filename : Option String) (source : String) (token : Token)
    (place : Option Position) : Prop :=
  ∃ lexeme ∈ Token.lexemes source, lexeme.token = token ∧
    place = some ⟨filename, lexeme.start.line, lexeme.start.column⟩

/-- A program that was read from a text is placed by its lexemes. -/
theorem arePlaced_of_ofSource {limit : Nat} {filename : Option String} {firstHandle : Nat}
    {source : String} {program : List Stmt}
    (h : ofSource limit filename firstHandle source = .ok program) :
    Stmt.ArePlaced (StandsIn filename source) program := by
  have hderivation := derivation_of_ofLexemes _ (ofSource_eq_ok_iff.1 h)
  refine RowDerivation.arePlaced hderivation fun lexeme hmem => ?_
  exact ⟨lexeme, hmem, rfl, rfl⟩

end Program

/-! ## What stands at a position -/

/-- The source line of a position, read from its column on, begins with a text. -/
def Text.BeginsAt (source : String) (place : Position) (text : String) : Prop :=
  1 ≤ place.line ∧ 1 ≤ place.column ∧
    ∃ line, (sourceLines source)[(place.line - 1).toNat]? = some line ∧
      text.toList <+: line.toList.drop (place.column - 1).toNat

/-- Without newlines, what begins a text begins its first line. -/
theorem Text.prefix_takeWhile {text input : List Char} (h : text <+: input) (hline : '\n' ∉ text) :
    text <+: input.takeWhile (· != '\n') := by
  obtain ⟨behind, rfl⟩ := h
  rw [List.takeWhile_append_of_pos (Token.bne_of_not_mem hline)]
  exact List.prefix_append _ _

/-- The position of a lexeme leads to its characters. -/
theorem Token.beginsAt_of_mem {source : String} {lexeme : Lexeme}
    (hmem : lexeme ∈ Token.lexemes source) {text : String}
    (htext : text.toList <+: source.toList.drop lexeme.start.offset) (hline : '\n' ∉ text.toList)
    (filename : Option String) :
    Text.BeginsAt source ⟨filename, lexeme.start.line, lexeme.start.column⟩ text := by
  -- positions are counted in integers, lines and columns of lexemes in natural numbers
  obtain ⟨hat, hlt⟩ := isAt_start_of_mem hmem
  obtain ⟨lines, line, others, hsplit, hlength, -, hdrop⟩ := hat.exists_line (Nat.le_of_lt hlt)
  have hone : 1 ≤ lexeme.start.line := by rw [hat.line]; omega
  have hline' : ((lexeme.start.line : Int) - 1).toNat = lines.length := by omega
  have hcolumn : ((lexeme.start.column : Int) - 1).toNat = lexeme.start.column - 1 := by omega
  refine ⟨by dsimp only; omega, by dsimp only [Cursor.column]; omega, String.ofList line, ?_, ?_⟩
  · rw [Text.sourceLines, hsplit, List.getElem?_map, hline',
      List.getElem?_append_right (Nat.le_refl _), Nat.sub_self]
    rfl
  · rw [String.toList_ofList, hcolumn, hdrop]
    exact Text.prefix_takeWhile htext hline

/-- The characters of a lexeme stand where it begins. -/
theorem Token.span_prefix (source : List Char) (lexeme : Lexeme) :
    lexeme.span source <+: source.drop lexeme.start.offset :=
  List.take_prefix _ _

namespace Program

variable {filename : Option String} {source : String} {place : Option Position}

/-- Where an operator stands, its spelling is found. -/
theorem StandsIn.operator {op : Operator} (h : StandsIn filename source (.operator op) place) :
    ∃ position, place = some position ∧ position.filename = filename ∧
      ∀ text : String, text.toList <+: op.spelling.toList → Text.BeginsAt source position text := by
  obtain ⟨lexeme, hmem, htoken, rfl⟩ := h
  refine ⟨_, rfl, rfl, fun text htext => ?_⟩
  have hspan := Token.span_prefix source.toList lexeme
  obtain ⟨shape, hspells, -⟩ := (Token.lexemes_tiling source).spells lexeme hmem
  rw [htoken] at hspells
  generalize lexeme.span source.toList = span at hspan hspells
  generalize source.toList.drop lexeme.stop.offset = after at hspells
  -- of all shapes only one spells an operator
  cases hspells with
  | bracket hbracket => simp [Token.brackets] at hbracket
  | operator =>
    have hline : '\n' ∉ text.toList := fun hnewline =>
      Token.newline_not_mem_spelling op (htext.subset hnewline)
    exact Token.beginsAt_of_mem hmem (htext.trans hspan) hline filename

/-- Where a reserved word stands, it is found. -/
theorem StandsIn.keyword {word : Keyword} (h : StandsIn filename source (.keyword word) place) :
    ∃ position, place = some position ∧ position.filename = filename ∧
      Text.BeginsAt source position word.word := by
  obtain ⟨lexeme, hmem, htoken, rfl⟩ := h
  refine ⟨_, rfl, rfl, ?_⟩
  have hspan := Token.span_prefix source.toList lexeme
  obtain ⟨shape, hspells, -⟩ := (Token.lexemes_tiling source).spells lexeme hmem
  rw [htoken] at hspells
  generalize lexeme.span source.toList = span at hspan hspells
  generalize source.toList.drop lexeme.stop.offset = after at hspells
  cases hspells with
  | bracket hbracket => simp [Token.brackets] at hbracket
  | keyword =>
    -- the span may hold one space more than the word
    have hword : word.word.toList <+: word.characters := List.prefix_append _ _
    have hline : '\n' ∉ word.word.toList := fun hnewline =>
      Token.newline_not_mem_characters word (hword.subset hnewline)
    exact Token.beginsAt_of_mem hmem (hword.trans hspan) hline filename

/-- Every token stands at a position of its text. -/
theorem StandsIn.exists_position {token : Token} (h : StandsIn filename source token place) :
    ∃ position, place = some position ∧ position.filename = filename := by
  obtain ⟨lexeme, -, -, rfl⟩ := h
  exact ⟨_, rfl, rfl⟩

/-- Every token of a text has a position. -/
theorem StandsIn.isSome {token : Token} (h : StandsIn filename source token place) :
    place.isSome = true := by
  obtain ⟨position, rfl, -⟩ := h.exists_position
  rfl

end Program

end Scriptlet
