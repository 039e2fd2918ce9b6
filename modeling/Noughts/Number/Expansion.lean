/-!
# Exact sums of doubles

A sum of doubles is kept as an *expansion*: a list of doubles, the least first, whose exact sum is
the exact sum of all that was added.  `grow` adds one more double to it, part by part, each time
splitting a sum of two into what is rounded and what the rounding lost.  `value` rounds the
expansion once, half to even.

Infinities and undefined values are collected beside the expansion and take precedence over it.
A sum fails when finite doubles overflow on the way, and when infinities of both signs meet.
-/

set_option autoImplicit false

namespace Noughts.Number

/-- Why doubles cannot be summed. -/
inductive SumError where
  /-- Finite doubles ran out of range on the way. -/
  | overflow
  /-- Infinities of both signs. -/
  | opposed
  deriving DecidableEq, Repr

/-- The wording of a sum error. -/
def SumError.message : SumError → String
  | .overflow => "intermediate overflow in fsum"
  | .opposed => "-inf + inf in fsum"

/-- A rounded sum and what the rounding lost. -/
def twoSum (x y : Float) : Float × Float :=
  if x.abs < y.abs then
    let high := y + x
    (high, x - (high - y))
  else
    let high := x + y
    (high, y - (high - x))

/-- Adds `x` to the parts of an expansion.  Answers the rounded whole and the parts it lost. -/
def grow (x : Float) : List Float → Float × List Float
  | [] => (x, [])
  | part :: rest =>
    let (high, low) := twoSum x part
    let (whole, lost) := grow high rest
    (whole, if low == 0.0 then lost else low :: lost)

/-- A sum under way. -/
structure ExactSum where
  /-- The expansion of the finite summands, the least part first. -/
  parts : List Float := []
  /-- The sum of the infinite summands. -/
  infinite : Float := 0.0
  /-- The sum of all summands that are not finite. -/
  special : Float := 0.0

/-- Adds one more summand. -/
def ExactSum.push (s : ExactSum) (x : Float) : Except SumError ExactSum :=
  let (whole, lost) := grow x s.parts
  if whole == 0.0 then .ok { s with parts := lost }
  else if whole.isFinite then .ok { s with parts := lost ++ [whole] }
  else if x.isFinite then .error .overflow
  else .ok ⟨[], if x.isInf then s.infinite + x else s.infinite, s.special + x⟩

/-- Rounds parts, given from the greatest down, to one double: the sum is taken from the top until
it becomes inexact, and a half is then decided by the sign of the next part. -/
def roundFrom (high : Float) : List Float → Float
  | [] => high
  | part :: rest =>
    let sum := high + part
    let low := part - (sum - high)
    if low == 0.0 then roundFrom sum rest
    else
      match rest with
      | [] => sum
      | next :: _ =>
        if (low < 0.0 && next < 0.0) || (0.0 < low && 0.0 < next) then
          let nudge := low * 2.0
          let moved := sum + nudge
          if nudge == moved - sum then moved else sum
        else sum

/-- The sum, rounded once. -/
def ExactSum.value (s : ExactSum) : Except SumError Float :=
  if s.special == 0.0 then
    match s.parts.reverse with
    | [] => .ok 0.0
    | top :: rest => .ok (roundFrom top rest)
  else if s.infinite.isNaN then .error .opposed
  else .ok s.special

/-- The exact sum of a list of doubles, rounded once. -/
def exactSum (xs : List Float) : Except SumError Float :=
  match xs.foldlM ExactSum.push {} with
  | .error e => .error e
  | .ok s => s.value

end Noughts.Number
