import Noughts.Search

/-!
# The game itself

What a position is worth, said without the search: by the rules of the game alone, as
`Board.winner` and `Board.legalMoves` read them off the whole board.

* `Board.mover` is the side to move, read off the number of crosses and noughts.
* `Board.outcome?` is the score of a game that is over: somebody owns a line, or no cell is empty.
* `Board.value` is the best outcome that the side to move can reach against best play, by
  recursion on the empty cells.
* `Board.positions` counts the positions of the whole game tree, this one included.

The search takes short cuts that have no counterpart here: the turn comes from the depth, lines
are looked for late and only through the last move, and a depth stands for a full board.
-/

set_option autoImplicit false

namespace Noughts

namespace Board

/-- The side to move.  Crosses begin, so a cross moves when there are as many of both. -/
def mover (b : Board) : Side :=
  if b.count Cell.cross = b.count Cell.nought then .maximizer else .minimizer

/-- The score of a game that is over. -/
def outcome? (b : Board) : Option Score :=
  match b.winner with
  | .ok p =>
    if p = Cell.empty then if b.legalMoves.isEmpty then some Score.tie else none
    else some (if p = Cell.cross then Score.win else Score.lose)
  | .error _ => some Score.tie

/-- The position after the mover has taken a cell. -/
def play (b : Board) (cell : Nat) : Board :=
  b.set cell b.mover.piece

end Board

/-- The best of the scores for a side, which has at least one to choose from. -/
def Side.best (side : Side) (scores : List Score) : Score :=
  match side with
  | .maximizer => scores.max?.getD side.seed
  | .minimizer => scores.min?.getD side.seed

/-- No side places empty cells. -/
theorem Side.piece_ne_empty (side : Side) : side.piece ≠ Cell.empty := by
  cases side <;> decide

namespace Board

/-- A legal move takes an empty cell. -/
theorem mem_legalMoves {b : Board} {cell : Nat} :
    cell ∈ b.legalMoves ↔ b[cell]? = some Cell.empty := by
  simp only [legalMoves, List.mem_filter, List.mem_range, decide_eq_true_eq, and_iff_right_iff_imp]
  intro h
  exact (List.getElem?_eq_some_iff.mp h).1

/-- **A move leaves one empty cell less.** -/
theorem count_play {b : Board} {cell : Nat} (h : cell ∈ b.legalMoves) :
    (b.play cell).count Cell.empty + 1 = b.count Cell.empty := by
  obtain ⟨hlt, hget⟩ := List.getElem?_eq_some_iff.mp (mem_legalMoves.mp h)
  have hmem : Cell.empty ∈ b := hget ▸ List.getElem_mem hlt
  have hpos : 0 < b.count Cell.empty := List.count_pos_iff.mpr hmem
  rw [play, List.count_set hlt, hget]
  simp [b.mover.piece_ne_empty]
  omega

/-- **The value of a position**: the score if the game is over, and otherwise the best value that
the mover can move to. -/
def value (b : Board) : Score :=
  match b.outcome? with
  | some s => s
  | none => b.mover.best (b.legalMoves.attach.map fun cell => value (b.play cell.1))
termination_by b.count Cell.empty
decreasing_by
  have := count_play cell.2
  omega

/-- The positions of the game tree below and including this one. -/
def positions (b : Board) : Nat :=
  match b.outcome? with
  | some _ => 1
  | none => b.legalMoves.attach.foldr (fun cell n => positions (b.play cell.1) + n) 1
termination_by b.count Cell.empty
decreasing_by
  have := count_play cell.2
  omega

/-- A game that is over is worth its outcome. -/
theorem value_of_over {b : Board} {s : Score} (h : b.outcome? = some s) : b.value = s := by
  rw [value]
  simp [h]

/-- A game that is not over is worth the best of the positions that the mover can reach. -/
theorem value_of_open {b : Board} (h : b.outcome? = none) :
    b.value = b.mover.best (b.legalMoves.map fun cell => (b.play cell).value) := by
  rw [value]
  simp [h]

/-- The tree of a game that is over is a single position. -/
theorem positions_of_over {b : Board} {s : Score} (h : b.outcome? = some s) : b.positions = 1 := by
  rw [positions]
  simp [h]

/-- The tree of a game that is not over has the trees below each move, and one position more. -/
theorem positions_of_open {b : Board} (h : b.outcome? = none) :
    b.positions = b.legalMoves.foldr (fun cell n => (b.play cell).positions + n) 1 := by
  rw [positions]
  simp [h]

end Board

end Noughts
