import Scriptlet.Text.Unprinted

/-! # Quoted texts

A text is quoted in single quotes, or in double quotes when it holds a single quote and no double
one. Inside, the quote itself, the backslash and all characters that are not printed are escaped. -/

namespace Scriptlet.Text

/-- A code in hexadecimal digits, filled up to a width. -/
def hex (width code : Nat) : List Char :=
  let digits := Nat.toDigits 16 code
  List.replicate (width - digits.length) '0' ++ digits

/-- A character between quotes. -/
def escape (quote c : Char) : List Char :=
  if c = quote ∨ c = '\\' then ['\\', c]
  else if c = '\n' then ['\\', 'n']
  else if c = '\r' then ['\\', 'r']
  else if c = '\t' then ['\\', 't']
  else if isUnprinted c then
    if c.toNat < 0x100 then ['\\', 'x'] ++ hex 2 c.toNat
    else if c.toNat < 0x10000 then ['\\', 'u'] ++ hex 4 c.toNat
    else ['\\', 'U'] ++ hex 8 c.toNat
  else [c]

/-- The quote that a text is put in. -/
def quoteOf (text : List Char) : Char :=
  if text.contains '\'' && !text.contains '"' then '"' else '\''

/-- A text in quotes. -/
def quoted (text : String) : String :=
  let quote := quoteOf text.toList
  String.ofList ([quote] ++ text.toList.flatMap (escape quote) ++ [quote])

end Scriptlet.Text
