/-!
# The clock

The readings that a clock will give, in order.  The last one is given again when they have run
out, and a clock without readings stands at zero.
-/

set_option autoImplicit false

namespace Noughts

/-- Readings to come, in seconds. -/
abbrev Clock := List Float

/-- The next reading, and the clock after it. -/
def Clock.tick : Clock → Float × Clock
  | [] => (0.0, [])
  | [last] => (last, [last])
  | now :: later => (now, later)

/-- The reading that comes after `k` others. -/
def Clock.reading (clock : Clock) (k : Nat) : Float :=
  clock.getD k (clock.getLast?.getD 0.0)

theorem Clock.tick_fst (clock : Clock) : clock.tick.1 = clock.reading 0 := by
  match clock with
  | [] => rfl
  | [_] => rfl
  | _ :: _ :: _ => rfl

theorem Clock.reading_tick (clock : Clock) (k : Nat) :
    clock.tick.2.reading k = clock.reading (k + 1) := by
  match clock with
  | [] => rfl
  | [_] => cases k <;> rfl
  | _ :: _ :: _ => simp [tick, reading]

end Noughts
