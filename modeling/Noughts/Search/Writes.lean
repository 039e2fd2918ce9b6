import Noughts.Search

/-!
# The writes of a search

A search writes to its board in two ways: it places the mover's piece on an empty cell before each
call below, and it empties the cell again when that call has found a score.  Here is the list of
these writes, in the order in which they are made.

Like the calls of `Noughts.Search.Calls`, the list follows the search it belongs to: `sweepWrites`
and `nodeWrites` take the decisions of `sweep` and `node` and only note what is written.  That it
leaves nothing out is `written_writes`: made one after the other, the writes turn the board into the
one that the search leaves behind, whether it finds a score or meets a fault.
-/

set_option autoImplicit false

namespace Noughts

/-- One write to a board. -/
structure Write where
  cell : Nat
  /-- What stands on the cell from now on; the empty cell takes a piece back. -/
  piece : Cell
  deriving DecidableEq, Repr

/-- The board after some writes, the first one first. -/
def Board.written (b : Board) (ws : List Write) : Board :=
  ws.foldl (fun b w => b.set w.cell w.piece) b

/-- The pieces that are placed, without those that are taken back. -/
def placements (ws : List Write) : Nat :=
  ws.countP fun w => decide (w.piece ≠ Cell.empty)

/-- A way of listing the writes that scoring a position takes. -/
abbrev Scribe := Board → Score → Score → Int → Int → List Write

/-- The writes of a sweep over the given cells. -/
def sweepWrites (cfg : Pruning) (child : Scorer) (below : Scribe) (depth : Int) :
    List Nat → Board → Score → Score → Score → List Write
  | [], _, _, _, _ => []
  | cell :: rest, b, α, β, best =>
    match b[cell]? with
    | none => []
    | some c =>
      if c = Cell.empty then
        let side := Side.atDepth depth
        let position := b.set cell side.piece
        let scored := child position α β (depth + 1) cell
        let made := ⟨cell, side.piece⟩ :: below position α β (depth + 1) cell
        match scored.score with
        | .error _ => made
        | .ok score =>
          match weigh cfg side α β best score with
          | .stop _ => made ++ [⟨cell, Cell.empty⟩]
          | .resume α' β' best' =>
            made ++ ⟨cell, Cell.empty⟩ :: sweepWrites cfg child below depth rest
              (scored.board.set cell Cell.empty) α' β' best'
      else sweepWrites cfg child below depth rest b α β best

/-- The writes of a call and of those below it. -/
def nodeWrites (cfg : Pruning) (child : Scorer) (below : Scribe) : Scribe :=
  fun b α β depth move =>
    match verdict b depth move with
    | .ok none => sweepWrites cfg child below depth cellOrder b α β (Side.atDepth depth).seed
    | _ => []

/-- The writes of a search that is nested `n` deep. -/
def nestWrites (cfg : Pruning) (ground : Scorer) : Nat → Scribe
  | 0 => fun _ _ _ _ _ => []
  | n + 1 => nodeWrites cfg (nest cfg ground n) (nestWrites cfg ground n)

/-- **The writes of a search.** -/
def writes (cfg : Pruning) (b : Board) (α β : Score) (depth move : Int) : List Write :=
  nestWrites cfg noCall (room b + 1) b α β depth move

/-! ## Nothing is left out -/

@[simp] theorem Board.written_nil (b : Board) : b.written [] = b := rfl

@[simp] theorem Board.written_cons (b : Board) (w : Write) (ws : List Write) :
    b.written (w :: ws) = Board.written (b.set w.cell w.piece) ws := rfl

@[simp] theorem Board.written_append (b : Board) (ws vs : List Write) :
    b.written (ws ++ vs) = (b.written ws).written vs :=
  List.foldl_append

theorem written_sweepWrites {cfg : Pruning} {child : Scorer} {below : Scribe} {depth : Int}
    (h : ∀ b α β d m, Board.written b (below b α β d m) = (child b α β d m).board)
    (cells : List Nat) (b : Board) (α β best : Score) :
    b.written (sweepWrites cfg child below depth cells b α β best)
      = (sweep cfg child depth cells b α β best).board := by
  induction cells generalizing b α β best with
  | nil => rfl
  | cons cell rest ih =>
    rw [sweepWrites, sweep]
    cases b[cell]? with
    | none => rfl
    | some c =>
      by_cases hc : c = Cell.empty
      · simp only [hc, if_true]
        cases hs : (child (b.set cell (Side.atDepth depth).piece) α β (depth + 1) cell).score with
        | error f => simp only [Board.written_cons, h]
        | ok score =>
          cases hw : weigh cfg (Side.atDepth depth) α β best score with
          | stop s => simp [hw, h]
          | resume α' β' best' => simp [hw, h, ih, Outcome.charge]
      · simp only [hc, if_false, ih]

theorem written_nodeWrites {cfg : Pruning} {child : Scorer} {below : Scribe}
    (h : ∀ b α β d m, Board.written b (below b α β d m) = (child b α β d m).board) (b : Board)
    (α β : Score) (depth move : Int) :
    b.written (nodeWrites cfg child below b α β depth move)
      = (node cfg child b α β depth move).board := by
  rw [nodeWrites, node]
  cases hv : verdict b depth move with
  | error f => rfl
  | ok v =>
    cases v with
    | some s => rfl
    | none => exact written_sweepWrites h cellOrder b α β _

theorem written_nestWrites (cfg : Pruning) (n : Nat) (b : Board) (α β : Score) (depth move : Int) :
    b.written (nestWrites cfg noCall n b α β depth move)
      = (nest cfg noCall n b α β depth move).board := by
  induction n generalizing b α β depth move with
  | zero => rfl
  | succ n ih => exact written_nodeWrites ih b α β depth move

/-- **The writes turn the board into the one that the search leaves behind.** -/
theorem written_writes (cfg : Pruning) (b : Board) (α β : Score) (depth move : Int) :
    b.written (writes cfg b α β depth move) = (minimax cfg b α β depth move).board :=
  written_nestWrites cfg (room b + 1) b α β depth move

end Noughts
