/-!
# Doubles as whole numbers

Every finite double is a whole multiple of the least positive one, `2 ^ -1074`.  Counted in that
unit, sums, squares and comparisons of doubles are exact arithmetic on integers, and a result is
rounded at most once, at the end, by `ofUnits`.
-/

set_option autoImplicit false

namespace Noughts.Number

/-- The biased exponent. -/
def exponentField (x : Float) : Nat := ((x.toBits >>> 52) &&& 0x7ff).toNat

/-- The fraction bits. -/
def fractionField (x : Float) : Nat := (x.toBits &&& 0xfffffffffffff).toNat

/-- Is the sign bit set? -/
def signBit (x : Float) : Bool := (x.toBits >>> 63) == 1

/-- Neither infinite nor undefined. -/
def isFinite (x : Float) : Bool := exponentField x != 0x7ff

/-- A power of two. -/
def twoTo (n : Nat) : Nat := Nat.pow 2 n

/-- A power of ten. -/
def tenTo (n : Nat) : Nat := Nat.pow 10 n

/-- The units in one. -/
def unitsInOne : Nat := twoTo 1074

/-- The size of a finite double, in units of `2 ^ -1074`. -/
def magnitude (x : Float) : Nat :=
  if exponentField x = 0 then fractionField x
  else (twoTo 52 + fractionField x) * twoTo (exponentField x - 1)

/-- A finite double, in units of `2 ^ -1074`. -/
def units (x : Float) : Int :=
  if signBit x then -(magnitude x : Int) else magnitude x

/-- The double of `m * 2 ^ k` units, for an `m` of at most 53 bits or `2 ^ 53` itself. -/
def ofScaled (m k : Nat) : Float :=
  let bits :=
    if m < twoTo 52 then m
    else if m = twoTo 53 then (k + 2) * twoTo 52
    else (k + 1) * twoTo 52 + (m - twoTo 52)
  if bits < 0x7ff * twoTo 52 then Float.ofBits bits.toUInt64 else Float.ofBits 0x7ff0000000000000

end Noughts.Number
