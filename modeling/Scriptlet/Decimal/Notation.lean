import Scriptlet.Decimal.Exact
import Scriptlet.Decimal.Shortest

/-! # Number texts

Numbers are written in two ways. A printed number has the fewest digits that read back, all in
positional notation. A quoted number, as it stands in a message about the source, is written out in
full when it is whole, and otherwise turns to exponent notation below one ten-thousandth. -/

namespace Scriptlet.Decimal

/-- The decimal digits of a natural number. -/
def digitsOf (value : Nat) : List Char :=
  Nat.toDigits 10 value

/-- A run of the digit zero. -/
def zeroDigits (count : Nat) : List Char :=
  List.replicate count '0'

/-- A decimal without exponent. -/
def positional (decimal : Scaled) : List Char :=
  let digits := digitsOf decimal.digits
  let places := (-decimal.exponent).toNat
  if places = 0 then digits ++ zeroDigits decimal.exponent.toNat
  else if digits.length ≤ places then
    ['0', '.'] ++ zeroDigits (places - digits.length) ++ digits
  else
    digits.take (digits.length - places) ++ ['.'] ++ digits.drop (digits.length - places)

/-- A decimal with one digit before the point and an exponent of at least two digits. -/
def scientific (decimal : Scaled) : List Char :=
  let digits := digitsOf decimal.digits
  let exponent := decimal.exponent + digits.length - 1
  let tail := digits.drop 1
  let size := digitsOf exponent.natAbs
  digits.take 1 ++ (if tail.isEmpty then [] else '.' :: tail)
    ++ ['e', if exponent < 0 then '-' else '+'] ++ zeroDigits (2 - size.length) ++ size

/-- The power of ten just above a decimal. -/
def magnitude (decimal : Scaled) : Int :=
  decimal.exponent + (digitsOf decimal.digits).length

/-- A decimal in positional notation from one ten-thousandth on and below ten to the sixteenth. -/
def compact (decimal : Scaled) : List Char :=
  if -4 < magnitude decimal ∧ magnitude decimal ≤ 16 then positional decimal
  else scientific decimal

/-- The minus sign of a negative number. -/
def signText : Float.Model.UnpackedFloat.Sign → List Char
  | .negative => ['-']
  | .positive => []

/-- An integer in decimal digits. -/
def integerText (value : Int) : List Char :=
  (if value < 0 then ['-'] else []) ++ digitsOf value.natAbs

/-- The printed form of a number: the fewest digits that read back, never an exponent. -/
def printed (number : Float) : String :=
  match number.toModel.unpack with
  | .notANumber => "NaN"
  | .infinity .positive => "inf"
  | .infinity .negative => "-inf"
  | .zero sign => String.ofList (signText sign ++ ['0'])
  | .finite sign mantissa exponent _ =>
    String.ofList (signText sign ++ positional (shortest mantissa exponent))

/-- The quoted form of a number: every digit of a whole number, else the fewest that read back. -/
def quoted (number : Float) : String :=
  match toInt? number with
  | some value => String.ofList (integerText value)
  | none =>
    match number.toModel.unpack with
    | .notANumber => "nan"
    | .infinity .positive => "inf"
    | .infinity .negative => "-inf"
    | .zero _ => "0"
    | .finite sign mantissa exponent _ =>
      String.ofList (signText sign ++ compact (shortest mantissa exponent))

end Scriptlet.Decimal
