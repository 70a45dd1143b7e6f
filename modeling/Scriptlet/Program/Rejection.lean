import Scriptlet.Position
import Scriptlet.Token

/-! # Rejections

Why a text is no program. A rejection names what was expected and the lexeme that was found in its
place; when the text ended first, more text could still complete it. -/

namespace Scriptlet

/-- What was expected at a place of a program. -/
inductive Expectation where
  /-- The beginning of an expression. -/
  | expression
  /-- An operator between two operands. -/
  | binaryOperator
  /-- The closing of a group. -/
  | closeGroup
  /-- The block that follows a condition. -/
  | bodyOfCondition
  /-- The block of an alternative. -/
  | bodyOfAlternative
  /-- The closing of a block. -/
  | closeBlock
  /-- The end of a statement that prints, behind its last token. -/
  | endOfPrint (last : Token)
  /-- The end of a statement that ends the program, behind its last token. -/
  | endOfReturn (last : Token)
  deriving Repr, DecidableEq

/-- An expectation in words. -/
def Expectation.text : Expectation → String
  | .expression => "an expression"
  | .binaryOperator => "an infix operator"
  | .closeGroup => "`)` to close group"
  | .bodyOfCondition => "`\x7b` after if condition"
  | .bodyOfAlternative => "`\x7b` after else"
  | .closeBlock => "`\x7d` to close block"
  | .endOfPrint last => "newline or `\x7d` after `" ++ last.quoted ++ "`"
  | .endOfReturn last => "newline after `" ++ last.quoted ++ "`"

/-- Why a list of lexemes is no program. -/
inductive ParseFault where
  /-- A lexeme stands where something else was expected. -/
  | unexpected (wanted : Expectation) (found : Lexeme)
  /-- The lexemes end where something was expected. -/
  | incomplete (wanted : Expectation)
  /-- A statement begins with a reserved word that has no meaning yet. -/
  | unsupported (found : Lexeme)
  /-- The lexemes are nested too deeply. -/
  | tooDeep
  deriving Repr, DecidableEq

/-- A fault of a text, with the name of the text and the place where it ends. -/
structure Rejection where
  /-- What is wrong. -/
  fault : ParseFault
  /-- The name of the text. -/
  filename : Option String
  /-- The place where the text ends. -/
  ending : Cursor
  deriving Repr, DecidableEq

namespace Rejection

/-- What a rejection says. -/
def message (rejection : Rejection) : String :=
  match rejection.fault with
  | .unexpected wanted found =>
    "Expected " ++ wanted.text ++ ", found `" ++ found.token.quoted ++ "`."
  | .incomplete wanted => "Expected " ++ wanted.text ++ ", found end of input."
  | .unsupported found =>
    "`" ++ found.token.quoted ++ "` is a reserved word, but it is not supported yet."
  | .tooDeep => "Source is nested too deeply to parse."

/-- The place that a rejection points at: the lexeme that was found, or else the end. -/
def cursor (rejection : Rejection) : Cursor :=
  match rejection.fault with
  | .unexpected _ found | .unsupported found => found.start
  | .incomplete _ | .tooDeep => rejection.ending

/-- The token that a rejection points at; there is none at the end of a text. -/
def token (rejection : Rejection) : String :=
  match rejection.fault with
  | .unexpected _ found | .unsupported found => found.token.quoted
  | .incomplete _ | .tooDeep => ""

/-- The position that a rejection points at. -/
def place (rejection : Rejection) : Position :=
  ⟨rejection.filename, rejection.cursor.line, rejection.cursor.column⟩

end Rejection

end Scriptlet
