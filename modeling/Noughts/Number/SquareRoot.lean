import Noughts.Number.Double

/-!
# Square roots, rounded once

`floorSqrt` is the integer square root, one binary digit at a time.  `sqrtUnits` is the double
nearest to the square root of a quotient of integers, a tie going to the even neighbour: the root
is cut at the last place a double has there, and one exact comparison says on which side of the
middle the rest lies.
-/

set_option autoImplicit false

namespace Noughts.Number

/-- The largest `r` with `r * r ≤ n`. -/
def floorSqrt (n : Nat) : Nat :=
  if h : n = 0 then 0
  else
    let r := 2 * floorSqrt (n / 4)
    if (r + 1) * (r + 1) ≤ n then r + 1 else r
termination_by n
decreasing_by omega

/-- The double nearest to the square root of `num / den`, counted in units of `2 ^ -1074`. -/
def sqrtUnits (num den : Nat) : Float :=
  let whole := floorSqrt (num / den)
  let drop := (whole.log2 + 1) - 53
  let cut := floorSqrt (num / (den * twoTo (2 * drop)))
  let twice := 4 * num
  let middle := (2 * cut + 1) * (2 * cut + 1) * den * twoTo (2 * drop)
  if twice < middle || (twice == middle && cut % 2 == 0) then ofScaled cut drop
  else ofScaled (cut + 1) drop

end Noughts.Number
