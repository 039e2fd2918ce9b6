/-!
# Summaries of timings

The size, the extremes, the mean and two percentiles of a sample of doubles.

* **Mean.**  The samples are added in a fixed order that keeps rounding errors small (`blockSum`):
  a short sample from left to right, a longer one in eight interleaved sums, a long one as the sum
  of two halves.
* **Percentiles** interpolate between the two samples around the wanted place.
* **Extremes.**  Of samples that compare equal, as the two zeros do, the last one counts.
* A sample with an undefined value has undefined extremes and percentiles.
-/

set_option autoImplicit false

namespace Noughts.Statistics

/-- An undefined value. -/
def undefined : Float := 0.0 / 0.0

/-- The greatest or least sample, or an undefined one if there is any: `better x m` says whether
`x` is to replace the extreme `m` met so far. -/
def extreme (better : Float → Float → Bool) : List Float → Float
  | [] => undefined
  | x :: xs => xs.foldl (fun m y => if m.isNaN then m else if y.isNaN || better y m then y else m) x

/-- The least sample. -/
def least : List Float → Float := extreme fun x m => x ≤ m

/-- The greatest sample. -/
def greatest : List Float → Float := extreme fun x m => m ≤ x

/-! ## The mean -/

/-- Adds blocks of eight to eight running sums; the rest that fills no block is handed back. -/
def addBlocks (sums : List Float) : List Float → List Float × List Float
  | a :: b :: c :: d :: e :: f :: g :: h :: rest =>
    addBlocks (List.zipWith (· + ·) sums [a, b, c, d, e, f, g, h]) rest
  | rest => (sums, rest)

/-- The eight running sums brought together in pairs. -/
def gather : List Float → Float
  | [a, b, c, d, e, f, g, h] => ((a + b) + (c + d)) + ((e + f) + (g + h))
  | sums => sums.foldl (· + ·) (-0.0)

/-- The sum of at most 128 samples. -/
def shortSum (xs : List Float) : Float :=
  if xs.length < 8 then xs.foldl (· + ·) (-0.0)
  else
    let (sums, rest) := addBlocks (xs.take 8) (xs.drop 8)
    rest.foldl (· + ·) (gather sums)

/-- Where a long sample is halved: near the middle, at a multiple of eight. -/
def halfOf (n : Nat) : Nat := n / 2 - n / 2 % 8

/-- The sum of the samples, in blocks. -/
def blockSum (xs : List Float) : Float :=
  if _h : xs.length ≤ 128 then shortSum xs
  else blockSum (xs.take (halfOf xs.length)) + blockSum (xs.drop (halfOf xs.length))
termination_by xs.length
decreasing_by
  all_goals simp only [List.length_take, List.length_drop, halfOf]; omega

/-- The mean of the samples. -/
def mean (xs : List Float) : Float :=
  (0.0 + blockSum xs) / xs.length.toFloat

/-! ## Percentiles -/

/-- The value a fraction `g` of the way from `low` to `high`, reckoned from the nearer end. -/
def interpolate (low high g : Float) : Float :=
  let d := high - low
  if g < 0.5 then low + d * g else high - d * (1.0 - g)

/-- The sample at a place of an ascending list. -/
def sampleAt (sorted : List Float) (k : Nat) : Float := (sorted[k]?).getD undefined

/-- The value below which a fraction `q` of the samples lies. -/
def percentile (q : Float) (xs : List Float) : Float :=
  if xs.any Float.isNaN then undefined
  else
    let sorted := xs.mergeSort fun a b => a ≤ b
    let last := xs.length - 1
    let place := last.toFloat * q
    if last.toFloat ≤ place then
      interpolate (sampleAt sorted last) (sampleAt sorted last) (place + 1.0)
    else
      let k := place.floor.toUInt64.toNat
      interpolate (sampleAt sorted k) (sampleAt sorted (k + 1)) (place - k.toFloat)

/-! ## The summary -/

/-- A sample in six numbers. -/
structure Summary where
  n : Float
  min : Float
  mean : Float
  p50 : Float
  p95 : Float
  max : Float

namespace Summary

/-- The summary of an empty sample: its size, and nothing else that is defined. -/
def blank : Summary := ⟨0.0, undefined, undefined, undefined, undefined, undefined⟩

/-- The summary of a sample. -/
def ofSamples (xs : List Float) : Summary :=
  if xs.isEmpty then blank
  else
    { n := xs.length.toFloat
      min := least xs
      mean := Statistics.mean xs
      p50 := percentile 0.5 xs
      p95 := percentile 0.95 xs
      max := greatest xs }

/-- The six numbers by name. -/
def entries (s : Summary) : List (String × Float) :=
  [("n", s.n), ("min", s.min), ("mean", s.mean), ("p50", s.p50), ("p95", s.p95), ("max", s.max)]

end Summary

/-! ## Groups -/

/-- Puts a sample under its name, behind those that are there already. -/
def file (name : String) (x : Float) :
    List (String × List Float) → List (String × List Float)
  | [] => [(name, [x])]
  | (key, xs) :: rest =>
    if key = name then (key, xs ++ [x]) :: rest else (key, xs) :: file name x rest

/-- The samples of each name, names and samples in the order in which they come. -/
def groups (timings : List (String × Float)) : List (String × List Float) :=
  timings.foldl (fun table t => file t.1 t.2 table) []

/-- The summary of each name's samples. -/
def summaries (timings : List (String × Float)) : List (String × Summary) :=
  (groups timings).map fun g => (g.1, Summary.ofSamples g.2)

end Noughts.Statistics
