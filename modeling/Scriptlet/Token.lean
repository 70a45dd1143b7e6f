import Scriptlet.Decimal.Notation
import Scriptlet.Operator

/-! # Tokens

A token is the smallest unit of a program text. A lexeme is a token together with the place where
it stands. -/

namespace Scriptlet

/-- A reserved word. -/
inductive Keyword where
  /-- Begins a statement that prints. -/
  | print
  /-- Begins a statement that ends the program. -/
  | ret
  /-- Begins a conditional statement. -/
  | cond
  /-- Begins the alternative of a conditional statement. -/
  | otherwise
  /-- Reserved, without a meaning yet. -/
  | loop
  /-- Reserved, without a meaning yet. -/
  | function
  /-- Stands in front of an operand and yields the name of its kind. -/
  | typeOf
  deriving Repr, DecidableEq

namespace Keyword

/-- All reserved words. -/
def all : List Keyword :=
  [.print, .ret, .cond, .otherwise, .loop, .function, .typeOf]

/-- How a reserved word is written. -/
def word : Keyword → String
  | .print => "print"
  | .ret => "return"
  | .cond => "if"
  | .otherwise => "else"
  | .loop => "for"
  | .function => "fn"
  | .typeOf => "typeof"

/-- The characters that make up a reserved word in a text: the word and one space, except that the
word of an alternative may touch what follows. -/
def characters (keyword : Keyword) : List Char :=
  keyword.word.toList ++ (if keyword = .otherwise then [] else [' '])

end Keyword

/-- A token of a program text. -/
inductive Token where
  /-- A name. -/
  | name (spelling : String)
  /-- A number. -/
  | number (value : Float)
  /-- A string literal, without its quotes. -/
  | text (content : String)
  /-- The opening of a group. -/
  | openParen
  /-- The closing of a group. -/
  | closeParen
  /-- The opening of a block. -/
  | openBrace
  /-- The closing of a block. -/
  | closeBrace
  /-- An operator. -/
  | operator (op : Operator)
  /-- A reserved word. -/
  | keyword (word : Keyword)
  /-- The end of a line. -/
  | newline
  deriving Repr, DecidableEq

namespace Token

/-- How a token is quoted in a message. -/
def quoted : Token → String
  | .name spelling => spelling
  | .number value => Decimal.quoted value
  | .text content => "\"" ++ content ++ "\""
  | .openParen => "("
  | .closeParen => ")"
  | .openBrace => "\x7b"
  | .closeBrace => "\x7d"
  | .operator op => op.spelling
  | .keyword word => word.word
  | .newline => "\\n"

/-- How tightly a token binds what stands to its left; only operators bind at all. -/
def level : Token → Level
  | .operator op => op.level
  | _ => .lowest

end Token

/-- A place in a program text, counted in characters. -/
structure Cursor where
  /-- The number of characters before the place. -/
  offset : Nat := 0
  /-- The number of the line, from one. -/
  line : Nat := 1
  /-- The offset of the first character of the line. -/
  lineStart : Nat := 0
  deriving Repr, DecidableEq

namespace Cursor

/-- The number of the column, from one. -/
def column (cursor : Cursor) : Nat :=
  cursor.offset - cursor.lineStart + 1

/-- The place behind one character. -/
def step (cursor : Cursor) (c : Char) : Cursor :=
  let offset := cursor.offset + 1
  if c = '\n' then ⟨offset, cursor.line + 1, offset⟩ else { cursor with offset }

/-- The place behind a run of characters. -/
def advance (cursor : Cursor) (characters : List Char) : Cursor :=
  characters.foldl step cursor

end Cursor

/-- A token and the place where it stands. -/
structure Lexeme where
  /-- The token. -/
  token : Token
  /-- The place of its first character. -/
  start : Cursor
  /-- The place behind it. -/
  stop : Cursor
  deriving Repr, DecidableEq

end Scriptlet
