/-!
# Reading numerals

A numeral is an optional sign followed by decimal digits with at most one point, and perhaps an
exponent, or by one of the words `inf`, `infinity` and `nan` in any case.  `Numeral.parse?` reads
one, `Numeral.toFloat` is the nearest float, and `hexadecimal?` reads a run of hexadecimal digits.

There are no separators and no surrounding blanks: a text is a numeral as a whole or not at all.
-/

namespace ScriptHost

/-- What the text of a number says. -/
inductive Numeral where
  | nan
  | infinite (negative : Bool)
  /-- The number `coefficient * 10 ^ exponent`, with a sign. -/
  | decimal (negative : Bool) (coefficient : Nat) (exponent : Int)
deriving DecidableEq, Repr

namespace Numeral

/-- The number whose decimal digits are `digits`. -/
def ofDigits (digits : List Char) : Nat :=
  digits.foldl (fun n c => 10 * n + (c.toNat - '0'.toNat)) 0

/-- Splits off an optional sign; the flag tells whether it is a minus. -/
def splitSign : List Char → Bool × List Char
  | '-' :: rest => (true, rest)
  | '+' :: rest => (false, rest)
  | text => (false, text)

/-- The exponent part of a numeral: nothing, or `e` and an integer with at least one digit. -/
def exponent? : List Char → Option Int
  | [] => some 0
  | c :: rest =>
    if c = 'e' ∨ c = 'E' then
      let (negative, digits) := splitSign rest
      if digits ≠ [] ∧ digits.all Char.isDigit then
        some (if negative then -(ofDigits digits : Int) else ofDigits digits)
      else none
    else none

/-- Splits what follows the digits before the point into the digits after it and the rest. -/
def splitFraction : List Char → List Char × List Char
  | '.' :: rest => (rest.takeWhile Char.isDigit, rest.dropWhile Char.isDigit)
  | rest => ([], rest)

/-- Reads an unsigned decimal: at least one digit, on either side of the point. -/
def decimal? (negative : Bool) (text : List Char) : Option Numeral := do
  let whole := text.takeWhile Char.isDigit
  let (fraction, rest) := splitFraction (text.dropWhile Char.isDigit)
  if whole = [] ∧ fraction = [] then none
  else
    let power ← exponent? rest
    some (.decimal negative (ofDigits (whole ++ fraction)) (power - fraction.length))

/-- Reads a whole text as a numeral. -/
def parse? (text : String) : Option Numeral :=
  let (negative, body) := splitSign text.toList
  let word := body.map Char.toLower
  if word = ['i', 'n', 'f'] ∨ word = ['i', 'n', 'f', 'i', 'n', 'i', 't', 'y'] then
    some (.infinite negative)
  else if word = ['n', 'a', 'n'] then some .nan
  else decimal? negative body

/-- The magnitude nearest to `coefficient * 10 ^ exponent`, ties to even.  Far outside the range of
floats the answer is known without computing the power. -/
def nearestFloat (coefficient : Nat) (exponent : Int) : Float :=
  let leading := (Nat.toDigits 10 coefficient).length + exponent
  if coefficient = 0 ∨ leading < -400 then 0.0
  else if 400 < leading then 1.0 / 0.0
  else Float.ofScientific coefficient (exponent < 0) exponent.natAbs

/-- The float nearest to what the numeral says. -/
def toFloat : Numeral → Float
  | .nan => 0.0 / 0.0
  | .infinite negative => if negative then -(1.0 / 0.0) else 1.0 / 0.0
  | .decimal negative coefficient exponent =>
    let size := nearestFloat coefficient exponent
    if negative then -size else size

end Numeral

/-- The value of a hexadecimal digit. -/
def hexDigit? (c : Char) : Option Nat :=
  if c.isDigit then some (c.toNat - '0'.toNat)
  else if 'a' ≤ c ∧ c ≤ 'f' then some (c.toNat - 'a'.toNat + 10)
  else if 'A' ≤ c ∧ c ≤ 'F' then some (c.toNat - 'A'.toNat + 10)
  else none

/-- Reads a run of hexadecimal digits from the left, rounding to a float after each digit. -/
def hexadecimal? (digits : List Char) : Option Float :=
  digits.foldlM
    (fun total c => do
      let digit ← hexDigit? c
      return total * 16.0 + digit.toFloat)
    0.0

end ScriptHost
