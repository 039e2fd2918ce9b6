/-!
# The node counter

The one piece of state that the runs of a benchmark share: a running total of search calls.  A run
adds to it once, after its searches are done, and every phase starts by resetting it.

An addition takes effect at once and in one piece, so a counter that several workers add to ends
at the same total in whichever order they come (`Counter.addAll`).
-/

set_option autoImplicit false

namespace Noughts

/-- A running total. -/
structure Counter where
  value : Int := 0
  deriving DecidableEq, Repr

namespace Counter

/-- The total with `n` more. -/
def add (c : Counter) (n : Int) : Counter := ⟨c.value + n⟩

/-- A fresh total. -/
def reset (_ : Counter) : Counter := ⟨0⟩

/-- The additions of a list, one after the other. -/
def addAll (c : Counter) (amounts : List Int) : Counter := amounts.foldl add c

@[simp] theorem value_add (c : Counter) (n : Int) : (c.add n).value = c.value + n := rfl

@[simp] theorem value_reset (c : Counter) : c.reset.value = 0 := rfl

end Counter

end Noughts
