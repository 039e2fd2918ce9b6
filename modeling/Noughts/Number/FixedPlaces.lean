import Noughts.Number.Double

/-!
# Decimals with a fixed number of places

The exact value of a double, rounded to a number of decimal places, a tie going to the even
neighbour.  The sign is kept even where nothing else is left of the number.
-/

set_option autoImplicit false

namespace Noughts.Number

/-- The whole number nearest to `num / den`, an even one if two are equally near. -/
def roundDiv (num den : Nat) : Nat :=
  let q := num / den
  let r := num % den
  if 2 * r < den || (2 * r == den && q % 2 == 0) then q else q + 1

/-- `n / 10 ^ places` in positional notation. -/
def pointed (n places : Nat) : String :=
  if places = 0 then toString n
  else
    let digits := (toString (n % tenTo places)).toList
    let zeros := List.replicate (places - digits.length) '0'
    toString (n / tenTo places) ++ "." ++ String.ofList (zeros ++ digits)

/-- The double with the given number of decimal places. -/
def fixed (places : Nat) (x : Float) : String :=
  if x.isNaN then "nan"
  else
    (if signBit x then "-" else "") ++
      if isFinite x then pointed (roundDiv (magnitude x * tenTo places) unitsInOne) places
      else "inf"

end Noughts.Number
