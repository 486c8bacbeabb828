import ScriptHost.Decimal.Magnitude
/-!
# Shortest decimal text of a float

Among the decimals that a reader would round back to a given float, the text shows one with the
fewest digits; of those the one nearest to the float, and of two equally near the larger.  It is
always positional: an exponent is never written.

## Main definitions

* `Decimal`: a natural number times a power of ten.
* `DecimalGrid`: the decimals with a given last place, measured against the floats around a value.
* `Magnitude.shortest`: the digits of the text.
* `Decimal.render`, `floatText`: the text.
-/

namespace ScriptHost

/-- The decimal `coefficient * 10 ^ exponent`. -/
structure Decimal where
  coefficient : Nat
  exponent : Int
deriving DecidableEq, Repr

/-- The multiples of `10 ^ place`, laid beside the quarters of a float's last binary place: both
steps are given as multiples of one common unit. -/
structure DecimalGrid where
  place : Int
  decimalStep : Nat
  quarterStep : Nat
deriving DecidableEq, Repr

namespace DecimalGrid

/-- The grid of the decimals that are multiples of `10 ^ place`, around `x`. -/
def around (x : Magnitude) (place : Int) : DecimalGrid where
  place := place
  decimalStep := Nat.pow 10 place.toNat * Nat.pow 2 (2 - x.exponent).toNat
  quarterStep := Nat.pow 10 (-place).toNat * Nat.pow 2 (x.exponent - 2).toNat

/-- The quarters of the last binary place of `x` at which rounding to `x` begins. -/
def lowerQuarters (x : Magnitude) : Nat :=
  4 * x.mantissa - (if x.narrowBelow then 1 else 2)

/-- The quarters of the last binary place of `x` at which rounding to `x` ends. -/
def upperQuarters (x : Magnitude) : Nat := 4 * x.mantissa + 2

/-- Whether the `n`-th point of the grid rounds to `x`.  The two ends of the interval belong to the
neighbour whose mantissa is even. -/
def readsBack (grid : DecimalGrid) (x : Magnitude) (n : Nat) : Bool :=
  let point := n * grid.decimalStep
  let lower := lowerQuarters x * grid.quarterStep
  let upper := upperQuarters x * grid.quarterStep
  if x.mantissa % 2 = 0 then lower ≤ point && point ≤ upper else lower < point && point < upper

/-- The point of the grid nearest to `x` among those that round to `x`.  Only the two points
around `x` need to be looked at, since the interval contains `x`. -/
def nearest? (grid : DecimalGrid) (x : Magnitude) : Option Decimal :=
  let value := 4 * x.mantissa * grid.quarterStep
  let below := value / grid.decimalStep
  let at? (n : Nat) : Option Decimal :=
    if grid.readsBack x n then some ⟨n, grid.place⟩ else none
  if 2 * value < (2 * below + 1) * grid.decimalStep then
    at? below <|> at? (below + 1)
  else
    at? (below + 1) <|> at? below

end DecimalGrid

namespace Decimal

/-- The same value with no zero at the end of its coefficient. -/
def stripZeros (coefficient : Nat) (exponent : Int) : Decimal :=
  if h : 0 < coefficient ∧ coefficient % 10 = 0 then
    stripZeros (coefficient / 10) (exponent + 1)
  else
    ⟨coefficient, exponent⟩
termination_by coefficient
decreasing_by omega

/-- The digits of the value with a point where it belongs. -/
def render (d : Decimal) : String :=
  let digits := Nat.toDigits 10 d.coefficient
  if 0 ≤ d.exponent then
    String.ofList (digits ++ List.replicate d.exponent.toNat '0')
  else
    let places := (-d.exponent).toNat
    let padded := List.replicate (places + 1 - digits.length) '0' ++ digits
    String.ofList
      (padded.take (padded.length - places) ++ '.' :: padded.drop (padded.length - places))

end Decimal

namespace Magnitude

/-- The value as a decimal, with all its digits. -/
def exactDecimal (x : Magnitude) : Decimal :=
  if 0 ≤ x.exponent then ⟨x.mantissa * Nat.pow 2 x.exponent.toNat, 0⟩
  else ⟨x.mantissa * Nat.pow 5 (-x.exponent).toNat, x.exponent⟩

/-- A decimal with the fewest digits that rounds to `x`.  Seventeen digits are enough to tell any
two floats apart. -/
def shortest (x : Magnitude) : Decimal :=
  if x.isZero then ⟨0, 0⟩
  else
    let found := (List.range 17).findSome? fun n : Nat =>
      (DecimalGrid.around x (x.scale - (n + 1))).nearest? x
    let d := found.getD x.exactDecimal
    Decimal.stripZeros d.coefficient d.exponent

end Magnitude

/-- The text of a float: the shortest digits that read back, without an exponent; either zero is
written without a sign. -/
def floatText (x : Float) : String :=
  match Binary64.ofFloat x with
  | .nan => "NaN"
  | .infinite negative => if negative then "-inf" else "inf"
  | .finite negative size =>
    (if negative && !size.isZero then "-" else "") ++ size.shortest.render

end ScriptHost
