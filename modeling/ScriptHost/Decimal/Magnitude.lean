/-!
# Binary floating-point numbers as exact quantities

A finite 64-bit float is a natural number times a power of two.  `Binary64.ofFloat` takes a float
apart into that form, so that the rest of the decimal modules can compute with naturals alone.
-/

namespace ScriptHost

/-- The size of a finite float: `mantissa * 2 ^ exponent`. -/
structure Magnitude where
  mantissa : Nat
  exponent : Int
  /-- Whether the gap to the next smaller float is half the gap to the next larger one. -/
  narrowBelow : Bool
deriving DecidableEq, Repr

/-- A float, taken apart. -/
inductive Binary64 where
  | nan
  | infinite (negative : Bool)
  | finite (negative : Bool) (size : Magnitude)
deriving DecidableEq, Repr

namespace Binary64

/-- The leading bit of a mantissa.  A pattern leaves it out, since all mantissas but the subnormal
ones have it. -/
def hiddenBit : Nat := 0x10000000000000

/-- The value that a 64-bit pattern stands for: one sign bit, eleven bits of exponent, and
fifty-two bits of fraction. -/
def ofBits (bits : UInt64) : Binary64 :=
  let pattern := bits.toNat
  let negative := pattern.testBit 63
  let biased := pattern / hiddenBit % 2048
  let fraction := pattern % hiddenBit
  if biased = 2047 then
    if fraction = 0 then .infinite negative else .nan
  else if biased = 0 then
    .finite negative { mantissa := fraction, exponent := -1074, narrowBelow := false }
  else
    .finite negative
      { mantissa := hiddenBit + fraction
        exponent := (biased : Int) - 1075
        -- just below a power of two the floats lie twice as close, unless they are subnormal
        narrowBelow := fraction = 0 && 1 < biased }

/-- A float, taken apart. -/
def ofFloat (x : Float) : Binary64 := ofBits x.toBits

end Binary64

namespace Magnitude

/-- Zero is the only magnitude without a leading digit. -/
def isZero (x : Magnitude) : Bool := x.mantissa == 0

/-- The least `k` with `x < 10 ^ k`, for a magnitude other than zero. -/
def scale (x : Magnitude) : Int :=
  let whole := x.mantissa * Nat.pow 2 x.exponent.toNat / Nat.pow 2 (-x.exponent).toNat
  if 0 < whole then
    (Nat.toDigits 10 whole).length
  else
    -- below one, the zeros after the point are the digits that `1 / x` has before its point
    let inverse := (Nat.pow 2 (-x.exponent).toNat - 1) / x.mantissa
    1 - ((Nat.toDigits 10 inverse).length : Int)

end Magnitude

end ScriptHost
