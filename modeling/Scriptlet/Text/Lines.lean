import Scriptlet.Text.Blank

/-! # Lines

Three ways to see lines in a text. A *source line* ends at a newline and nowhere else. A *printed
line* ends at any line boundary of the Unicode standard, and keeps the boundary. Reading a file or
a stream as text first turns every carriage return, alone or before a newline, into a newline. -/

namespace Scriptlet.Text

/-- Carriage returns, alone or before a newline, become newlines. -/
def unifyNewlines : List Char → List Char
  | [] => []
  | '\r' :: '\n' :: rest => '\n' :: unifyNewlines rest
  | c :: rest => (if c = '\r' then '\n' else c) :: unifyNewlines rest

/-- The text of a file or stream whose raw characters are given. -/
def ofRaw (raw : String) : String :=
  String.ofList (unifyNewlines raw.toList)

/-- The pieces between newlines; there is one more of them than there are newlines. -/
def splitNewlines : List Char → List (List Char)
  | [] => [[]]
  | c :: rest =>
    if c = '\n' then [] :: splitNewlines rest
    else
      match splitNewlines rest with
      | [] => [[c]]
      | line :: lines => (c :: line) :: lines

/-- The source lines of a text. -/
def sourceLines (text : String) : List String :=
  (splitNewlines text.toList).map String.ofList

/-- Whether a character is a line boundary on its own. -/
def isLineBoundary (c : Char) : Bool :=
  let code := c.toNat
  (0x0A ≤ code && code ≤ 0x0D) || (0x1C ≤ code && code ≤ 0x1E) || code == 0x85
    || code == 0x2028 || code == 0x2029

/-- Puts a character in front of the first line. -/
def consLine (c : Char) : List (List Char) → List (List Char)
  | [] => [[c]]
  | line :: lines => (c :: line) :: lines

/-- The printed lines, each with its boundary; a carriage return before a newline belongs to it. -/
def splitBoundaries : List Char → List (List Char)
  | [] => []
  | '\r' :: '\n' :: rest => ['\r', '\n'] :: splitBoundaries rest
  | c :: rest =>
    if isLineBoundary c then [c] :: splitBoundaries rest
    else consLine c (splitBoundaries rest)

/-- The printed lines of a text, each with its boundary. -/
def printedLines (text : String) : List String :=
  (splitBoundaries text.toList).map String.ofList

/-- The source lines of a text, each with its newline; nothing follows a final newline. -/
def splitAfterNewlines : List Char → List (List Char)
  | [] => []
  | c :: rest =>
    if c = '\n' then [c] :: splitAfterNewlines rest else consLine c (splitAfterNewlines rest)

/-- The lines of a file, each with its newline. -/
def fileLines (text : String) : List String :=
  (splitAfterNewlines text.toList).map String.ofList

/-- A line without the newlines at its end. -/
def dropTrailingNewlines (line : String) : String :=
  String.ofList (line.toList.reverse.dropWhile (· == '\n')).reverse

/-- Puts a margin in front of every printed line that is not blank. -/
def indent (margin : String) (text : String) : String :=
  String.join ((printedLines text).map fun line =>
    if isBlankText line then line else margin ++ line)

end Scriptlet.Text
