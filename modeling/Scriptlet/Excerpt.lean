import Scriptlet.Position
import Scriptlet.Text.Colour
import Scriptlet.Text.Field
import Scriptlet.Text.Lines

/-! # Excerpts

Reports show the place of a problem in the source: the single line where it arose, or the lines
around a token, with the token marked. -/

namespace Scriptlet.Excerpt

/-- Something that may be unknown, in words. -/
def orNone (text : Option String) : String :=
  text.getD "None"

/-- The source line with a number, counted from one; empty when there is none. -/
def lineAt (source : String) (line : Int) : String :=
  if 0 < line then ((Text.sourceLines source)[line.toNat - 1]?).getD "" else ""

/-- The source line of a position, below a heading that names file, line and culprit. Without a
position there is nothing to show, and without a source only the heading. -/
def ofPosition (place : Option Position) (culprit : Option String) (source : Option String) :
    String :=
  match place with
  | none => ""
  | some place =>
    let heading := Text.white ("  File \"" ++ orNone place.filename ++ "\", line "
      ++ toString place.line ++ ", in " ++ orNone culprit) ++ "\n"
    let content := Text.trim ((source.map (lineAt · place.line)).getD "")
    heading ++ (if content.isEmpty then "" else Text.indent "    " content ++ "\n")

/-- Marks the characters of a token in a line, if its column lies in the line. At least one
character is marked. -/
def markToken (column : Int) (token line : String) : String :=
  if 0 < column ∧ column ≤ line.length then
    let characters := line.toList
    let before := column.toNat - 1
    let width := max 1 token.length
    String.ofList (characters.take before)
      ++ Text.marked (String.ofList ((characters.drop before).take width))
      ++ String.ofList (characters.drop (before + width))
  else line

/-- One numbered row. The row with the problem is bright and has its token marked. -/
def row (line column : Int) (token : String) (number : Nat) (content : String) : String :=
  let content := Text.dropTrailingNewlines content
  let gutter := Text.alignRight 5 (toString number) ++ " |"
  if number = line then Text.white gutter ++ " " ++ markToken column token content
  else Text.grey gutter ++ " " ++ content

/-- The rows from two before a line to two after it, each with its number. -/
def rowsAround (line : Int) (lines : List String) : List (Nat × String) :=
  let first := (line - 3).toNat
  let last := min lines.length (line + 2).toNat
  ((lines.zipIdx.take last).drop first).map fun entry => (entry.2 + 1, entry.1)

/-- The lines around a token, below a heading that names file and line. -/
def ofToken (filename : Option String) (line column : Int) (token : String)
    (lines : List String) : String :=
  let heading := Text.white ("  File \"" ++ orNone filename ++ "\", line " ++ toString line)
  let rows := (rowsAround line lines).map fun entry => row line column token entry.1 entry.2
  "\n" ++ Text.join "\n" (heading :: rows) ++ "\n"

end Scriptlet.Excerpt
