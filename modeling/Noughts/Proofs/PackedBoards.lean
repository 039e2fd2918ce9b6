import Noughts.Proofs.SearchTree
import Mathlib.Data.Nat.Bitwise

/-!
# Boards packed into bits

The search of a whole game makes a few thousand calls, and each of them reads its board cell by
cell.  To have such a search evaluated in a proof, it helps to read less: here a board without
foreign pieces is a pair of numbers, one for each side, and a side stands on a cell if the bit of
that cell is set (`Packed`).  What the game tree needs of a board is then a few bit operations:
which cells are free, what the board is after a move, and whether the last move completed a line.

* `Shows`: a pair of numbers shows what stands on a board.  A move keeps it so (`Shows.place`).
* `Packed.tree`: the game tree, read off the numbers, by recursion on the moves that are left.
* `Shows.gameTree_eq`: it is the tree of the board that is shown.
-/

set_option autoImplicit false

namespace Noughts

/-- The score of a line of one's own is the best there is. -/
theorem Side.score_piece (side : Side) :
    (if side.piece = Cell.cross then Score.win else Score.lose) = side.goal := by
  cases side <;> decide

/-- The cells of the two sides, each a number with the bits of its cells set. -/
structure Packed where
  crosses : Nat
  noughts : Nat

namespace Packed

/-- No piece on any cell. -/
def empty : Packed := ⟨0, 0⟩

/-- Does the side stand on the cell? -/
def holds (k : Packed) : Side → Nat → Bool
  | .maximizer, cell => k.crosses.testBit cell
  | .minimizer, cell => k.noughts.testBit cell

/-- Does nobody stand on the cell? -/
def free (k : Packed) (cell : Nat) : Bool :=
  !(k.holds .maximizer cell || k.holds .minimizer cell)

/-- The board after a side has taken a cell. -/
def place (k : Packed) : Side → Nat → Packed
  | .maximizer, cell => { k with crosses := k.crosses ||| 1 <<< cell }
  | .minimizer, cell => { k with noughts := k.noughts ||| 1 <<< cell }

/-- Does the side hold the other two cells of a line through the cell? -/
def lined (k : Packed) (side : Side) (cell : Nat) : Bool :=
  (pairsThrough cell).any fun ij => k.holds side ij.1 && k.holds side ij.2

/-- **The game tree of a packed board**, with some moves left, a side to move, and the cell that the
other side took last. -/
def tree : Nat → Side → Packed → Nat → Tree
  | 0, side, k, cell => .leaf (if k.lined side.other cell then side.other.goal else Score.tie)
  | left + 1, side, k, cell =>
    if left + 1 ≤ 4 ∧ k.lined side.other cell then .leaf side.other.goal
    else .fork side ((cellOrder.filter k.free).map fun c =>
      tree left side.other (k.place side c) c)

theorem holds_place (k : Packed) (side side' : Side) (cell cell' : Nat) :
    (k.place side cell).holds side' cell'
      = (k.holds side' cell' || decide (side = side') && decide (cell = cell')) := by
  cases side <;> cases side' <;>
    simp [place, holds, Nat.testBit_or, Nat.one_shiftLeft, Nat.testBit_two_pow]

end Packed

/-- The packed board shows what stands on the nine cells of a board. -/
structure Shows (b : Board) (k : Packed) : Prop where
  length : b.length = 9
  holds_iff : ∀ side : Side, ∀ cell < 9, k.holds side cell = true ↔ b[cell]? = some side.piece
  free_iff : ∀ cell < 9, k.free cell = true ↔ b[cell]? = some Cell.empty

namespace Shows

variable {b : Board} {k : Packed} {cell : Nat}

theorem empty : Shows Board.empty Packed.empty := by
  refine ⟨rfl, fun side => ?_, by decide⟩
  cases side <;> decide

/-- **A move keeps the two boards alike.** -/
theorem place (h : Shows b k) (side : Side) (hcell : cell < 9) (hb : b[cell]? = some Cell.empty) :
    Shows (b.set cell side.piece) (k.place side cell) := by
  have hlt : cell < b.length := by rw [h.length]; exact hcell
  refine ⟨by rw [List.length_set, h.length], fun side' cell' hcell' => ?_, fun cell' hcell' => ?_⟩
  · rw [Packed.holds_place, Bool.or_eq_true, h.holds_iff side' cell' hcell']
    by_cases he : cell = cell'
    · subst he
      rw [hb, List.getElem?_set_self hlt]
      have hne : some Cell.empty ≠ some side'.piece := fun hsome =>
        side'.piece_ne_empty (Option.some.inj hsome).symm
      constructor
      · rintro (hsome | hside)
        · exact absurd hsome hne
        · rw [show side = side' by simpa using hside]
      · intro hsome
        exact Or.inr (by simp [Side.piece_inj (Option.some.inj hsome)])
    · rw [List.getElem?_set_ne he]
      simp [he]
  · rw [Packed.free, Packed.holds_place, Packed.holds_place]
    by_cases he : cell = cell'
    · subst he
      rw [List.getElem?_set_self hlt]
      have hne : some side.piece ≠ some Cell.empty := fun hsome =>
        side.piece_ne_empty (Option.some.inj hsome)
      simp only [hne, iff_false]
      cases side <;> simp
    · rw [List.getElem?_set_ne he, ← h.free_iff cell' hcell', Packed.free]
      simp [he]

theorem openCells_eq (h : Shows b k) : openCells b = cellOrder.filter k.free := by
  refine List.filter_congr fun c hc => ?_
  rw [Bool.eq_iff_iff, decide_eq_true_eq, h.free_iff c (mem_cellOrder.mp hc)]

/-! ## The verdict of a call -/

theorem winnerThrough_eq (h : Shows b k) (hcell : cell < 9) {side : Side}
    (hb : b[cell]? = some side.piece) :
    winnerThrough b cell = .ok (if k.lined side cell then side.piece else Cell.empty) := by
  have hlined : (∃ ij ∈ pairsThrough cell, b[ij.1]? = some side.piece ∧ b[ij.2]? = some side.piece)
      ↔ k.lined side cell = true := by
    rw [Packed.lined, List.any_eq_true]
    refine exists_congr fun ij => and_congr_right fun hij => ?_
    obtain ⟨hi, hj⟩ := pairsThrough_lt hcell ij hij
    rw [Bool.and_eq_true, h.holds_iff side _ hi, h.holds_iff side _ hj]
  rw [winnerThrough_natCast (Nat.le_of_eq h.length.symm) hcell hb]
  simp only [hlined]

/-- A call is decided by a line of its last move if it is late enough, and by a full board. -/
theorem verdict_eq (h : Shows b k) (hcell : cell < 9) {side : Side}
    (hb : b[cell]? = some side.piece) {depth : Int} {left : Nat} (hd : depth + left = 8) :
    verdict b depth cell = .ok (if left ≤ 4 ∧ k.lined side cell then some side.goal
      else if left = 0 then some Score.tie else none) := by
  have hthrough := h.winnerThrough_eq hcell hb
  by_cases hearly : depth < firstLineDepth
  · have hleft : ¬ left ≤ 4 := by simp only [firstLineDepth] at hearly; omega
    rw [verdict_of_early hearly, if_neg fun hl => hleft hl.1, if_neg (by omega)]
  · have hleft : left ≤ 4 := by simp only [firstLineDepth] at hearly; omega
    by_cases hl : k.lined side cell = true
    · rw [if_pos hl] at hthrough
      rw [verdict_of_owner hearly hthrough side.piece_ne_empty, side.score_piece,
        if_pos ⟨hleft, hl⟩]
    · rw [if_neg hl] at hthrough
      have hfull : depth = fullDepth ↔ left = 0 := by simp only [fullDepth]; omega
      rw [verdict_of_empty hearly hthrough,
        if_neg (show ¬(left ≤ 4 ∧ k.lined side cell = true) from fun hand => hl hand.2)]
      simp only [hfull]

/-! ## The tree -/

/-- **The tree that is read off the numbers is the game tree of the board.** -/
theorem gameTree_eq (h : Shows b k) {left : Nat} {depth : Int} (hd : depth + left = 8)
    (hcell : cell < 9) (hb : b[cell]? = some (Side.atDepth depth).other.piece) :
    gameTree b depth cell = Packed.tree left (Side.atDepth depth) k cell := by
  induction left generalizing b k depth cell with
  | zero =>
    have hv := h.verdict_eq hcell hb hd
    rw [Packed.tree]
    split_ifs with hl
    · rw [if_pos ⟨Nat.zero_le 4, hl⟩] at hv
      exact gameTree_of_over hv
    · rw [if_neg fun hand => hl hand.2, if_pos rfl] at hv
      exact gameTree_of_over hv
  | succ left ih =>
    have hv := h.verdict_eq hcell hb hd
    rw [Packed.tree]
    split_ifs with hl
    · rw [if_pos hl] at hv
      exact gameTree_of_over hv
    · rw [if_neg hl, if_neg (Nat.succ_ne_zero left)] at hv
      rw [gameTree_of_open hv, children, ← h.openCells_eq]
      congr 1
      refine List.map_congr_left fun c hc => ?_
      obtain ⟨hclt, hfree⟩ := mem_openCells.mp hc
      rw [← Side.atDepth_add_one]
      refine ih (h.place _ hclt hfree) (by push_cast at hd; omega) hclt ?_
      rw [Side.atDepth_add_one, Side.other_other]
      exact getElem?_after_self depth hfree

end Shows

end Noughts
