import Scriptlet.Stmt
import Scriptlet.Text.Colour

/-! # Trace lines

Before a traced statement is executed, its number is written, then the bindings in a field of fixed
width, then the statement in another. A text that is too long for its field is cut: of the bindings
the end remains, of the statement the beginning. -/

namespace Scriptlet.Trace

/-- The width of a field. -/
def fieldWidth : Nat := 72

/-- One binding: its name and how its value is shown. -/
def itemText (item : String × Option Value) : String :=
  item.1 ++ "=" ++ (item.2.map Value.shown).getD "None"

/-- All bindings on one line. -/
def itemsText (items : List (String × Option Value)) : String :=
  if items.isEmpty then "∅" else Text.join " " (items.map itemText)

/-- The end of a text that is too long for a width. -/
def cutFront (width : Nat) (text : String) : String :=
  if width < text.length then "… " ++ Text.dropTo (2 - width) text else text

/-- The beginning of a text that is too long for a width. -/
def cutBack (width : Nat) (text : String) : String :=
  if width < text.length then Text.takeTo (width - 2) text ++ " …" else text

/-- The field of the bindings; without a width nothing is cut or aligned. -/
def itemsField (width : Option Nat) (items : List (String × Option Value)) : String :=
  match width with
  | none => itemsText items
  | some width => Text.alignRight width (cutFront width (itemsText items))

/-- The field of a statement. -/
def statementField (width : Nat) (text : String) : String :=
  Text.alignLeft width (cutBack width text)

/-- The mark between the two fields. -/
def separator : String :=
  " " ++ Text.cyan " <=> " ++ " "

/-- The bindings and a statement on one line. -/
def line (width : Nat) (items : List (String × Option Value)) (text : String) : String :=
  itemsField (some width) items ++ separator ++ statementField width text ++ "\n"

/-- The number of a statement. -/
def stepMark (steps : Nat) : String :=
  Text.grey (Text.alignRight 3 (toString steps) ++ " :") ++ "  "

end Scriptlet.Trace
