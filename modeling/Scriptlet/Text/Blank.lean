/-! # Blank characters

Blanks end a name and are trimmed from the ends of a text. The class is the white space of the
Unicode standard together with the four separator controls U+001C to U+001F. -/

namespace Scriptlet.Text

/-- Whether a character is blank: Unicode white space or a separator control. -/
def isBlank (c : Char) : Bool :=
  let code := c.toNat
  (0x09 ≤ code && code ≤ 0x0D) || (0x1C ≤ code && code ≤ 0x20) || code == 0x85 || code == 0xA0
    || code == 0x1680 || (0x2000 ≤ code && code ≤ 0x200A) || code == 0x2028 || code == 0x2029
    || code == 0x202F || code == 0x205F || code == 0x3000

/-- The characters without the blanks at their front. -/
def dropBlanks (text : List Char) : List Char :=
  text.dropWhile isBlank

/-- The characters without the blanks at their end. -/
def dropTrailingBlanks (text : List Char) : List Char :=
  (text.reverse.dropWhile isBlank).reverse

/-- The text without the blanks at its end. -/
def trimEnd (text : String) : String :=
  String.ofList (dropTrailingBlanks text.toList)

/-- The text without the blanks at both ends. -/
def trim (text : String) : String :=
  String.ofList (dropTrailingBlanks (dropBlanks text.toList))

/-- Whether a text holds nothing but blanks. -/
def isBlankText (text : String) : Bool :=
  text.toList.all isBlank

end Scriptlet.Text
