import Noughts.Text.Blank
import Noughts.Text.Digit

/-!
# Reading integers

An integer is a run of decimal digits, of any script, with an optional sign in front.  A single
underscore may stand between two digits.  Blanks around it are ignored, the four information
separators apart, which are no part of a number.  A run of more than `maxDigits` digits is refused.
-/

set_option autoImplicit false

namespace Noughts.Text

/-- The most digits that are read, zeros in front included. -/
def maxDigits : Nat := 4300

/-- Blanks that may surround an integer. -/
def surroundsInteger (c : Char) : Bool :=
  isBlank c && !(0x1c ≤ c.toNat && c.toNat ≤ 0x1f)

/-- The digits of a run in which single underscores may stand between digits.  `fresh` says that
a digit has to come next. -/
def digitRun? : (fresh : Bool) → List Char → Option (List Nat)
  | fresh, [] => if fresh then none else some []
  | fresh, c :: cs =>
    if c = '_' then if fresh then none else digitRun? true cs
    else
      match digitValue? c with
      | some d => (digitRun? false cs).map (d :: ·)
      | none => none

/-- The number that a run of digits stands for. -/
def natural? (cs : List Char) : Option Nat :=
  match digitRun? true cs with
  | some ds => if ds.length ≤ maxDigits then some (ds.foldl (fun n d => 10 * n + d) 0) else none
  | none => none

/-- Reads an integer. -/
def integer? (s : String) : Option Int :=
  let cs := ((s.toList.dropWhile surroundsInteger).reverse.dropWhile surroundsInteger).reverse
  match cs with
  | '+' :: rest => (natural? rest).map Int.ofNat
  | '-' :: rest => (natural? rest).map fun n => -(n : Int)
  | _ => (natural? cs).map Int.ofNat

end Noughts.Text
