/-!
# Signed indices

A cell of a board, a row of the line table and an entry of a symmetry's map are all named by an
integer, and the same three rules hold for each of them:

* `0, 1, …` count from the front, `-1, -2, …` from the back, so a table of `n` entries answers to
  the `2 * n` integers from `-n` to `n - 1`;
* any other integer is *absent*, and the fault says from which table;
* an integer outside the 64-bit range is *oversized*, whatever the table.

`position` turns an integer into a place from the front, and `entry` reads the table there.
-/

set_option autoImplicit false

namespace Noughts

/-- The tables that are read by a signed index. -/
inductive Table where
  /-- The cells of a board, or the nine images under a symmetry. -/
  | cells
  /-- The lines through each cell. -/
  | lines
  deriving DecidableEq, Repr

/-- Why an index names nothing. -/
inductive Fault where
  /-- The table has no entry there. -/
  | absent (table : Table)
  /-- No table could have an entry there. -/
  | oversized
  deriving DecidableEq, Repr

/-- The wording of a fault. -/
def Fault.message : Fault → String
  | .absent .cells => "list index out of range"
  | .absent .lines => "tuple index out of range"
  | .oversized => "cannot fit 'int' into an index-sized integer"

/-- Indices run over the signed 64-bit integers. -/
def indexable (i : Int) : Bool :=
  decide (-9223372036854775808 ≤ i) && decide (i < 9223372036854775808)

/-- The place, counted from the front, that `i` names in a table of `size` entries. -/
def position? (size : Nat) (i : Int) : Option Nat :=
  if 0 ≤ i then
    if i < size then some i.toNat else none
  else if -(size : Int) ≤ i then some (i + size).toNat else none

/-- `position?`, with the fault when there is no such place. -/
def position (table : Table) (size : Nat) (i : Int) : Except Fault Nat :=
  match position? size i with
  | some k => .ok k
  | none => .error (if indexable i then .absent table else .oversized)

/-- The entry at a place counted from the front. -/
def entryAt {α : Type} (table : Table) (xs : List α) (k : Nat) : Except Fault α :=
  match xs[k]? with
  | some a => .ok a
  | none => .error (.absent table)

/-- The entry that the signed index `i` names. -/
def entry {α : Type} (table : Table) (xs : List α) (i : Int) : Except Fault α :=
  match position table xs.length i with
  | .ok k => entryAt table xs k
  | .error f => .error f

end Noughts
