import Noughts.Board
import Noughts.Text.Blank

/-!
# Boards as text

Two written forms of a board.

* **Digits**: one digit per cell, `0` empty, `1` cross, `2` nought, as in `"100020000"`.
  `Board.digits` writes it and `Board.parse` reads it back; blanks around the nine digits are
  ignored, blanks between them are not.  A foreign piece is written with all the digits of its
  number, so a board that holds one has no digit form that could be read.
* **Drawing**: three rows of three cells with rules between them.
-/

set_option autoImplicit false

namespace Noughts

namespace Board

/-! ## Digits -/

/-- The cells' numbers, one after the other. -/
def digits (b : Board) : String :=
  String.join (b.map fun c => toString c)

/-- The cell that a digit stands for. -/
def cellOfDigit? : Char → Option Cell
  | '0' => some Cell.empty
  | '1' => some Cell.cross
  | '2' => some Cell.nought
  | _ => none

/-- The board that nine digits describe. -/
def ofDigits? (cs : List Char) : Option Board :=
  if cs.length = 9 then cs.mapM cellOfDigit? else none

/-- Reads the digit form of a board. -/
def parse (s : String) : Except BoardError Board :=
  match ofDigits? (Text.strip s.toList) with
  | some b => .ok b
  | none => .error .malformed

/-! ## Drawing -/

/-- How a cell is drawn: a foreign piece shows its number. -/
def mark (c : Cell) : String :=
  if c = Cell.empty then " "
  else if c = Cell.cross then "X"
  else if c = Cell.nought then "O"
  else toString c

/-- The row that starts at cell `first`. -/
def row (b : Board) (first : Nat) : Except Fault String := do
  let left ← entryAt .cells b first
  let middle ← entryAt .cells b (first + 1)
  let right ← entryAt .cells b (first + 2)
  return mark left ++ "|" ++ mark middle ++ "|" ++ mark right

/-- The board as three rows with rules between them. -/
def drawing (b : Board) : Except Fault String := do
  let top ← b.row 0
  let middle ← b.row 3
  let bottom ← b.row 6
  return "\n-+-+-\n".intercalate [top, middle, bottom]

end Board

end Noughts
