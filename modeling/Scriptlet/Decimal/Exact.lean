/-! # Exact readings of a double

A finite double is a signed mantissa times a power of two, so questions about its whole part and
remainders are questions about integers. The functions here answer them exactly and round once, at
the end, if at all. -/

namespace Scriptlet.Decimal

open Float.Model (UnpackedFloat)

/-- The smallest integer of 32 bits. -/
def int32Min : Int := -2147483648

/-- The largest integer of 32 bits. -/
def int32Max : Int := 2147483647

/-- The nearest integer of 32 bits. -/
def clampInt32 (value : Int) : Int :=
  max int32Min (min int32Max value)

/-- The whole part of `mantissa · 2^exponent`. -/
def wholePart (mantissa : Nat) (exponent : Int) : Nat :=
  mantissa * Nat.pow 2 exponent.toNat / Nat.pow 2 (-exponent).toNat

/-- Whether `mantissa · 2^exponent` is a whole number. -/
def isWhole (mantissa : Nat) (exponent : Int) : Bool :=
  mantissa % Nat.pow 2 (-exponent).toNat == 0

/-- The number cut toward zero and held within 32 bits; what is not a number becomes zero. -/
def toInt32 (number : Float) : Int :=
  match number.toModel.unpack with
  | .notANumber => 0
  | .infinity .positive => int32Max
  | .infinity .negative => int32Min
  | .zero _ => 0
  | .finite sign mantissa exponent _ => clampInt32 (sign.apply (wholePart mantissa exponent))

/-- The integer that a number is, if it is one. -/
def toInt? (number : Float) : Option Int :=
  match number.toModel.unpack with
  | .notANumber | .infinity _ => none
  | .zero _ => some 0
  | .finite sign mantissa exponent _ =>
    if isWhole mantissa exponent then some (sign.apply (wholePart mantissa exponent)) else none

/-- The double nearest to `mantissa · 2^exponent` under a sign; a tie goes to the even mantissa. -/
def ofBinary (sign : UnpackedFloat.Sign) (mantissa : Nat) (exponent : Int) : Float :=
  .ofModel (.pack (.normalize .binary64 (sign.apply mantissa) exponent sign))

/-- The double nearest to an integer; a tie goes to the even mantissa. -/
def nearest (value : Int) : Float :=
  .ofModel (.pack (.normalize .binary64 value 0 .positive))

/-- What is not a number. -/
def notANumber : Float := 0.0 / 0.0

/-- Positive infinity. -/
def infinity : Float := 1.0 / 0.0

/-- The remainder of a division that cuts the quotient toward zero. It carries the sign of the
dividend and is exact. -/
def remainder (dividend divisor : Float) : Float :=
  match dividend.toModel.unpack, divisor.toModel.unpack with
  | .notANumber, _ | _, .notANumber | .infinity _, _ | _, .zero _ => notANumber
  | .zero _, _ | .finite .., .infinity _ => dividend
  | .finite sign mantissa exponent _, .finite _ mantissa' exponent' _ =>
    let shared := min exponent exponent'
    let scaled := mantissa * Nat.pow 2 (exponent - shared).toNat
    let scaled' := mantissa' * Nat.pow 2 (exponent' - shared).toNat
    ofBinary sign (scaled % scaled') shared

end Scriptlet.Decimal
