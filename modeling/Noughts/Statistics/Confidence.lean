import Noughts.Number.Expansion
import Noughts.Number.SquareRoot

/-!
# Confidence intervals

The mean of a sample and the half width of its 95% confidence interval, under the normal
approximation: `1.96` standard deviations of the mean to either side.

The mean is the exact sum, rounded, over the size.  The standard deviation is that of the sample
taken as the whole population; it is worked out exactly from the samples' units and rounded once.
It is asked for only where there are two samples or more, and it needs finite ones.
-/

set_option autoImplicit false

namespace Noughts.Statistics

open Number

/-- Why a sample has no confidence interval. -/
inductive ConfidenceError where
  /-- The samples cannot be summed. -/
  | sum (e : SumError)
  /-- A spread is only defined for finite samples. -/
  | notFinite
  deriving DecidableEq, Repr

/-- The wording of a confidence error. -/
def ConfidenceError.message : ConfidenceError → String
  | .sum e => e.message
  | .notFinite => "'float' object has no attribute 'numerator'"

/-- The standard deviation of a population of finite doubles, rounded once.  With `n` members of
`a₁, a₂, …` units it is the root of `(n · ∑ aᵢ² - (∑ aᵢ)²) / n²`. -/
def deviation (xs : List Float) : Except ConfidenceError Float :=
  if xs.all isFinite then
    let us := xs.map units
    let n := us.length
    let total : Int := us.foldl (fun s u => s + u) 0
    let squares : Int := us.foldl (fun s u => s + u * u) 0
    let spread := n * squares - total * total
    .ok (sqrtUnits spread.toNat (n * n))
  else .error .notFinite

/-- A mean and the half width of the interval around it. -/
structure Confidence where
  mean : Float
  half : Float

/-- The interval of a sample; an empty one has neither mean nor width. -/
def confidence (xs : List Float) : Except ConfidenceError Confidence := do
  if xs.isEmpty then
    return ⟨0.0 / 0.0, 0.0 / 0.0⟩
  let n := xs.length.toFloat
  let total ← (exactSum xs).mapError .sum
  let spread ← if 1 < xs.length then deviation xs else .ok 0.0
  return ⟨total / n, 1.96 * (spread / n.sqrt)⟩

end Noughts.Statistics
