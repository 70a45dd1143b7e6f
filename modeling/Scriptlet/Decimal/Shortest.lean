/-! # Shortest decimals

A double stands for all reals that round to it. Of the decimals among them, the shortest one lies
on the coarsest grid of multiples of a power of ten that meets this interval; where the grid meets
it twice, the nearer point is taken, and of two equally near ones the even multiple. Everything is
decided by comparing naturals, after both sides are multiplied by the missing powers of two and
ten. -/

namespace Scriptlet.Decimal

/-- A decimal `digits · 10^exponent`. -/
structure Scaled where
  /-- The digits, read as one natural number. -/
  digits : Nat
  /-- The power of ten. -/
  exponent : Int
  deriving Repr, DecidableEq

/-- A count of quarter units of the last binary place, scaled for comparison with a grid. -/
def quarterSide (exponent power : Int) (quarters : Nat) : Nat :=
  quarters * Nat.pow 2 (exponent - 2).toNat * Nat.pow 10 (-power).toNat

/-- A multiple of a power of ten, scaled for comparison with quarter units. -/
def gridSide (exponent power : Int) (multiple : Nat) : Nat :=
  multiple * Nat.pow 10 power.toNat * Nat.pow 2 (2 - exponent).toNat

/-- The least mantissa of full length, which stands for a power of two. -/
def leastMantissa : Nat := 4503599627370496

/-- The exponent of the last binary place of all. -/
def lastPlace : Int := -1074

/-- The lower end of the interval in quarter units. Below a power of two the neighbours stand
closer, unless the place is already the last one. -/
def lowQuarters (mantissa : Nat) (exponent : Int) : Nat :=
  if mantissa = leastMantissa ∧ lastPlace < exponent then 4 * mantissa - 1 else 4 * mantissa - 2

/-- The upper end of the interval in quarter units. -/
def highQuarters (mantissa : Nat) : Nat :=
  4 * mantissa + 2

/-- Whether `multiple · 10^power` rounds to `mantissa · 2^exponent`. The ends of the interval
belong to an even mantissa. -/
def readsBack (mantissa : Nat) (exponent power : Int) (multiple : Nat) : Bool :=
  let low := quarterSide exponent power (lowQuarters mantissa exponent)
  let high := quarterSide exponent power (highQuarters mantissa)
  let point := gridSide exponent power multiple
  if mantissa % 2 = 0 then low ≤ point && point ≤ high else low < point && point < high

/-- The multiple of `10^power` that reads back as `mantissa · 2^exponent`, if there is one. -/
def multiple? (mantissa : Nat) (exponent power : Int) : Option Nat :=
  let value := quarterSide exponent power (4 * mantissa)
  let below := value / gridSide exponent power 1
  let above := below + 1
  match readsBack mantissa exponent power below, readsBack mantissa exponent power above with
  | false, false => none
  | true, false => some below
  | false, true => some above
  | true, true =>
    let short := value - gridSide exponent power below
    let excess := gridSide exponent power above - value
    if short < excess || (short = excess && below % 2 = 0) then some below else some above

/-- The decimal that equals `mantissa · 2^exponent`. -/
def exactDecimal (mantissa : Nat) (exponent : Int) : Scaled :=
  ⟨mantissa * Nat.pow 2 exponent.toNat * Nat.pow 5 (-exponent).toNat, min exponent 0⟩

/-- Tries ever finer grids, and takes the exact decimal when the steps are used up. -/
def searchGrid (mantissa : Nat) (exponent : Int) : Nat → Int → Scaled
  | 0, _ => exactDecimal mantissa exponent
  | steps + 1, power =>
    match multiple? mantissa exponent power with
    | some multiple => ⟨multiple, power⟩
    | none => searchGrid mantissa exponent steps (power - 1)

/-- A power of ten above every decimal that reads back as `mantissa · 2^exponent`. -/
def topPower (mantissa : Nat) (exponent : Int) : Int :=
  let bits : Int := mantissa.log2 + exponent
  if bits < 0 then bits * 3 / 10 + 2 else bits / 3 + 2

/-- The shortest decimal that reads back as `mantissa · 2^exponent`. -/
def shortest (mantissa : Nat) (exponent : Int) : Scaled :=
  let top := topPower mantissa exponent
  searchGrid mantissa exponent (top - min exponent 0).toNat top

end Scriptlet.Decimal
