import Noughts.Index

/-!
# The board

A board is a row-major list of cells:

```
0 1 2
3 4 5
6 7 8
```

A cell is an integer: `0` is empty, `1` is a cross, `2` is a nought.  Any other integer is a
foreign piece.  It blocks the cell, may own a line, and is never moved.  A proper board has nine
cells, but nothing here assumes it: a board that is too short makes the reader report the cell
that is missing, and cells past the ninth are carried along and never looked at.

* `Board.empty`, `Board.opening?` and `Board.parse` build boards;
* `Board.digits` writes one back, `Board.drawing` draws it;
* `Board.legalMoves` and `Board.winner` read the position off the whole board, which is what the
  incremental line test of `Noughts.Lines` and the search of `Noughts.Search` are measured against.

Whose turn it is is never stored on the board.
-/

set_option autoImplicit false

namespace Noughts

/-- What stands on a cell. -/
abbrev Cell := Int

/-- The empty cell. -/
abbrev Cell.empty : Cell := 0

/-- A cross. -/
abbrev Cell.cross : Cell := 1

/-- A nought. -/
abbrev Cell.nought : Cell := 2

/-- The cells of a position, row by row. -/
abbrev Board := List Cell

/-- Why a board cannot be built from what was given. -/
inductive BoardError where
  /-- The opening cross has no cell on the board. -/
  | openingOutside (cell : Int)
  /-- The text is not nine digits `0`, `1`, `2`. -/
  | malformed
  deriving DecidableEq, Repr

/-- The wording of a board error. -/
def BoardError.message : BoardError → String
  | .openingOutside cell => "Cell index out of range [0,8]: " ++ toString cell
  | .malformed => "Invalid board string. Must be 9 chars of 0/1/2."

namespace Board

/-! ## Building -/

/-- Nine empty cells. -/
def empty : Board := List.replicate 9 Cell.empty

/-- The board with a single cross on `cell`. -/
def opening? (cell : Int) : Except BoardError Board :=
  if 0 ≤ cell ∧ cell ≤ 8 then .ok (empty.set cell.toNat Cell.cross)
  else .error (.openingOutside cell)

/-- The starting board: empty, or with the opening cross already played. -/
def start : Option Int → Except BoardError Board
  | none => .ok empty
  | some cell => opening? cell

/-! ## Reading a position off the whole board -/

/-- The empty cells, in ascending order. -/
def legalMoves (b : Board) : List Nat :=
  (List.range b.length).filter fun i => decide (b[i]? = some Cell.empty)

/-- Three cells in a row. -/
structure Line where
  first : Nat
  second : Nat
  third : Nat
  deriving DecidableEq, Repr

/-- The rows, the columns and the two diagonals. -/
def winningLines : List Line :=
  [⟨0, 1, 2⟩, ⟨3, 4, 5⟩, ⟨6, 7, 8⟩,
   ⟨0, 3, 6⟩, ⟨1, 4, 7⟩, ⟨2, 5, 8⟩,
   ⟨0, 4, 8⟩, ⟨2, 4, 6⟩]

/-- The piece that owns the line, or the empty cell.  The three cells are read in order and only
as far as the line can still be complete, so a missing third cell goes unnoticed when the first
two already differ. -/
def ownerOf (b : Board) (l : Line) : Except Fault Cell := do
  let p ← entryAt .cells b l.first
  if p = Cell.empty then
    return Cell.empty
  let q ← entryAt .cells b l.second
  if p ≠ q then
    return Cell.empty
  let r ← entryAt .cells b l.third
  return if p = r then p else Cell.empty

/-- The owner of the first complete line of `lines`, or the empty cell. -/
def winnerAmong (b : Board) : List Line → Except Fault Cell
  | [] => .ok Cell.empty
  | l :: rest => do
    let p ← b.ownerOf l
    if p ≠ Cell.empty then return p else b.winnerAmong rest

/-- The full scan: the owner of the first complete line, or the empty cell. -/
def winner (b : Board) : Except Fault Cell :=
  b.winnerAmong winningLines

end Board

end Noughts
