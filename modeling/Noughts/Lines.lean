import Noughts.Board

/-!
# The lines through a cell

Only a line through the last move can have been completed by it.  So each cell is given the two,
three or four lines that pass through it, each as the pair of its *other* cells, and
`winnerThrough` looks at those lines alone.  `Board.winner`, which scans all eight, is the measure
it has to agree with.

The last move is a signed index, and it is used twice: on the board, and, when a piece stands
there, on the table of lines.  Each use has its own fault.  A cell that is empty is never looked
up in the table, and a line is abandoned at its first cell that differs.
-/

set_option autoImplicit false

namespace Noughts

open Board (Line)

/-- The other two cells of a line through `cell`. -/
def Board.Line.others? (l : Line) (cell : Nat) : Option (Nat × Nat) :=
  if l.first = cell then some (l.second, l.third)
  else if l.second = cell then some (l.first, l.third)
  else if l.third = cell then some (l.first, l.second)
  else none

/-- The lines through a cell, as pairs of other cells, in the order of `Board.winningLines`. -/
def pairsThrough (cell : Nat) : List (Nat × Nat) :=
  Board.winningLines.filterMap fun l => l.others? cell

/-- `pairsThrough` for each of the nine cells. -/
def linesThrough : List (List (Nat × Nat)) :=
  (List.range 9).map pairsThrough

/-- Does `p` hold both cells of one of the pairs?  Answers `p` itself, or the empty cell. -/
def completes (b : Board) (p : Cell) : List (Nat × Nat) → Except Fault Cell
  | [] => .ok Cell.empty
  | (i, j) :: rest =>
    match entryAt .cells b i with
    | .error f => .error f
    | .ok q =>
      if p = q then
        match entryAt .cells b j with
        | .error f => .error f
        | .ok r => if p = r then .ok p else completes b p rest
      else completes b p rest

/-- **The line test of one move**: the piece at `move` if it completes a line through that cell,
and the empty cell otherwise. -/
def winnerThrough (b : Board) (move : Int) : Except Fault Cell :=
  match entry .cells b move with
  | .error f => .error f
  | .ok p =>
    if p = Cell.empty then .ok Cell.empty
    else
      match entry .lines linesThrough move with
      | .error f => .error f
      | .ok pairs => completes b p pairs

end Noughts
