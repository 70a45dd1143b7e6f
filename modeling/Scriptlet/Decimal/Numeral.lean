import Scriptlet.Decimal.Exact
import Scriptlet.Text.Blank
import Scriptlet.Text.Digit

/-! # Numerals

A numeral is a text that stands for a number. The source of a program admits only digits with at
most one point. A binding given from outside admits more: blanks around it, a sign, digits of any
script, single underscores between digits, an exponent, and the names of infinity and of what is
not a number. -/

namespace Scriptlet.Decimal

/-- The value of a run of ASCII digits. -/
def digitsValue (digits : List Char) : Nat :=
  digits.foldl (fun value digit => 10 * value + (digit.toNat - 0x30)) 0

/-- The double nearest to the decimal with the given digits before and after the point. -/
def ofDigits (whole fraction : List Char) (exponent : Int) : Float :=
  .ofModel (.ofScientific (digitsValue (whole ++ fraction)) (exponent - fraction.length))

/-- Whether a character may stand in a number of a program's source. -/
def isNumeric (c : Char) : Bool :=
  c.isDigit || c == '.'

/-- The value of a run of digits and points, if it has a digit and at most one point. -/
def ofRun? (run : List Char) : Option Float :=
  if run.any Char.isDigit && run.count '.' ≤ 1 then
    some (ofDigits (run.takeWhile (· != '.')) ((run.dropWhile (· != '.')).drop 1) 0)
  else none

/-- A numeral's characters in ASCII: blanks of any kind become spaces and digits of any script
become ASCII digits; every other character beyond ASCII is refused. -/
def toAscii? (c : Char) : Option Char :=
  if c.toNat < 0x80 then some c
  else if Text.isBlank c then some ' '
  else (Text.digitValue? c).map Text.digitChar

/-- Whether an ASCII character may surround a numeral. -/
def isPadding (c : Char) : Bool :=
  c == ' ' || (0x09 ≤ c.toNat && c.toNat ≤ 0x0D)

/-- Drops the padding at both ends. -/
def dropPadding (text : List Char) : List Char :=
  ((text.dropWhile isPadding).reverse.dropWhile isPadding).reverse

/-- Drops the underscores, each of which has to stand between two digits. -/
def dropUnderscores? (previous : Char) : List Char → Option (List Char)
  | [] => some []
  | ['_'] => none
  | '_' :: next :: rest =>
    if previous.isDigit && next.isDigit then
      (dropUnderscores? next rest).map (next :: ·)
    else none
  | c :: rest => (dropUnderscores? c rest).map (c :: ·)

/-- The exponent written at the end of a decimal; no text means zero. -/
def exponent? : List Char → Option Int
  | [] => some 0
  | mark :: rest =>
    let digits := match rest with
      | '+' :: digits | '-' :: digits => digits
      | digits => digits
    if (mark == 'e' || mark == 'E') && !digits.isEmpty && digits.all Char.isDigit then
      some (if rest.head? = some '-' then -(digitsValue digits : Int) else digitsValue digits)
    else none

/-- The value of a decimal with an optional point and an optional exponent. -/
def decimal? (text : List Char) : Option Float :=
  let whole := text.takeWhile Char.isDigit
  let afterWhole := text.dropWhile Char.isDigit
  let fraction := match afterWhole with
    | '.' :: rest => rest.takeWhile Char.isDigit
    | _ => []
  let afterFraction := match afterWhole with
    | '.' :: rest => rest.dropWhile Char.isDigit
    | rest => rest
  if whole.isEmpty && fraction.isEmpty then none
  else (exponent? afterFraction).map (ofDigits whole fraction ·)

/-- The value of a numeral without sign. -/
def unsigned? (text : List Char) : Option Float :=
  match String.ofList (text.map Char.toLower) with
  | "inf" | "infinity" => some infinity
  | "nan" => some notANumber
  | _ => decimal? text

/-- The value of a numeral with an optional sign. -/
def signed? : List Char → Option Float
  | '+' :: rest => unsigned? rest
  | '-' :: rest => (unsigned? rest).map (-·)
  | text => unsigned? text

/-- The number that a text stands for. -/
def ofText? (text : String) : Option Float := do
  let ascii ← text.toList.mapM toAscii?
  let digits ← dropUnderscores? ' ' (dropPadding ascii)
  signed? digits

end Scriptlet.Decimal
