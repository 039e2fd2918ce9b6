import Noughts.Number.Double

/-!
# The shortest decimal that reads back

The reals that round to a double form an interval around it.  Its text is the decimal in that
interval with the fewest significant digits, and of those the one nearest to the double.

For each number of digits there are only two candidates, the neighbours of the double on the grid
of decimals with that many digits: if any point of the grid lies in the interval, one of these two
does.  All comparisons are between integers.

`Layout` holds the choices of one notation, and `plain` is the one that reports use: positional
from `0.0001` up to sixteen digits before the point, with at least one place after it, and
otherwise with an exponent of at least two digits.
-/

set_option autoImplicit false

namespace Noughts.Number

/-- A decimal `digits * 10 ^ exponent`. -/
structure Decimal where
  digits : Nat
  exponent : Int
  deriving DecidableEq, Repr

/-- The power of ten of the leading digit of a positive number of units. -/
def leadingPower (v : Nat) : Int :=
  ((Nat.toDigits 10 (v * tenTo 400 / unitsInOne)).length : Int) - 401

/-- The interval that rounds to `x`, in quarters of a unit, and whether its ends belong to it. -/
def roundingInterval (x : Float) : Nat × Nat × Bool :=
  let v := 4 * magnitude x
  let step := twoTo (exponentField x - 1)
  let below := if fractionField x = 0 ∧ 1 < exponentField x then step else 2 * step
  (v - below, v + 2 * step, fractionField x % 2 == 0)

/-- The best decimal with `count` significant digits that rounds to `x`, if there is one. -/
def decimalWith? (x : Float) (count : Nat) : Option Decimal :=
  let exponent := leadingPower (magnitude x) - ((count : Int) - 1)
  let up := tenTo (-exponent).toNat
  let num := magnitude x * up
  let den := unitsInOne * tenTo exponent.toNat
  let (low, high, closed) := roundingInterval x
  let q := num / den
  let inside (c : Nat) : Bool :=
    let p := 4 * c * den
    if closed then decide (low * up ≤ p) && decide (p ≤ high * up)
    else decide (low * up < p) && decide (p < high * up)
  let twice := 2 * (num % den)
  let nearer := if twice < den || (twice == den && q % 2 == 0) then q else q + 1
  let farther := if nearer = q then q + 1 else q
  if inside nearer then some ⟨nearer, exponent⟩
  else if inside farther then some ⟨farther, exponent⟩
  else none

/-- The shortest decimal of a finite positive double. -/
def shortest (x : Float) : Decimal :=
  ((List.range 17).findSome? fun n => decimalWith? x (n + 1)).getD ⟨magnitude x, -1074⟩

/-- The choices of a notation for doubles. -/
structure Layout where
  /-- The least power of ten of a leading digit that is written positionally. -/
  leastPositional : Int
  /-- The first power of ten that no longer is. -/
  firstScientific : Int
  /-- The least number of digits of an exponent. -/
  exponentDigits : Nat
  undefined : String
  infinite : String

/-- The notation of reports. -/
def plain : Layout := ⟨-4, 16, 2, "NaN", "Infinity"⟩

/-- The digits of a decimal without the zeros at its end. -/
def significant (d : Decimal) : List Char :=
  ((toString d.digits).toList.reverse.dropWhile (· == '0')).reverse

/-- A positive decimal in the given notation. -/
def Layout.decimal (l : Layout) (d : Decimal) : String :=
  let all := (toString d.digits).toList
  let power := d.exponent + (all.length - 1)
  let ds := significant d
  if l.leastPositional ≤ power ∧ power < l.firstScientific then
    if power < 0 then
      "0." ++ String.ofList (List.replicate ((-power).toNat - 1) '0' ++ ds)
    else
      let whole := power.toNat + 1
      let padded := ds ++ List.replicate (whole - ds.length) '0'
      let places := padded.drop whole
      String.ofList (padded.take whole) ++ "." ++
        (if places.isEmpty then "0" else String.ofList places)
  else
    let exponent := (toString power.natAbs).toList
    let zeros := List.replicate (l.exponentDigits - exponent.length) '0'
    String.ofList (ds.take 1) ++
      (if ds.length ≤ 1 then "" else "." ++ String.ofList (ds.drop 1)) ++
      (if power < 0 then "e-" else "e+") ++ String.ofList (zeros ++ exponent)

/-- A double in the given notation. -/
def Layout.double (l : Layout) (x : Float) : String :=
  if x.isNaN then l.undefined
  else
    (if signBit x then "-" else "") ++
      if !isFinite x then l.infinite
      else if magnitude x = 0 then "0.0"
      else l.decimal (shortest x)

end Noughts.Number
