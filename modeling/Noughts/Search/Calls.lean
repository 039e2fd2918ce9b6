import Noughts.Search

/-!
# The calls of a search

The search says how many calls it made.  Here is the list of them: each call with the cells that
were played on the way to it, in the order in which the calls are made.

The list follows the search it belongs to.  `sweepCalls` and `nodeCalls` take the same decisions
as `sweep` and `node`, from the same scores, and only write down what is called; a cell that is
skipped or cut off leads to no call.  That the list is as long as the search says is `length_calls`.
-/

set_option autoImplicit false

namespace Noughts

/-- One call of a search. -/
structure Call where
  /-- The cells played since the first call, in order. -/
  played : List Nat
  board : Board
  depth : Int
  /-- The move that was just played. -/
  move : Int
  deriving DecidableEq, Repr

/-- A way of listing the calls that scoring a position takes, behind the cells played so far. -/
abbrev Lister := List Nat → Board → Score → Score → Int → Int → List Call

/-- The calls below a sweep over the given cells. -/
def sweepCalls (cfg : Pruning) (child : Scorer) (below : Lister) (played : List Nat) (depth : Int) :
    List Nat → Board → Score → Score → Score → List Call
  | [], _, _, _, _ => []
  | cell :: rest, b, α, β, best =>
    match b[cell]? with
    | none => []
    | some c =>
      if c = Cell.empty then
        let side := Side.atDepth depth
        let position := b.set cell side.piece
        let scored := child position α β (depth + 1) cell
        let calls := below (played ++ [cell]) position α β (depth + 1) cell
        match scored.score with
        | .error _ => calls
        | .ok score =>
          match weigh cfg side α β best score with
          | .stop _ => calls
          | .resume α' β' best' =>
            calls ++ sweepCalls cfg child below played depth rest (scored.board.set cell Cell.empty)
              α' β' best'
      else sweepCalls cfg child below played depth rest b α β best

/-- A call and those below it. -/
def nodeCalls (cfg : Pruning) (child : Scorer) (below : Lister) : Lister :=
  fun played b α β depth move =>
    ⟨played, b, depth, move⟩ ::
      match verdict b depth move with
      | .ok none =>
        sweepCalls cfg child below played depth cellOrder b α β (Side.atDepth depth).seed
      | _ => []

/-- The calls of a search that is nested `n` deep. -/
def nestCalls (cfg : Pruning) (ground : Scorer) : Nat → Lister
  | 0 => fun _ _ _ _ _ _ => []
  | n + 1 => nodeCalls cfg (nest cfg ground n) (nestCalls cfg ground n)

/-- **The calls of a search**, the first one included. -/
def calls (cfg : Pruning) (b : Board) (α β : Score) (depth move : Int) : List Call :=
  nestCalls cfg noCall (room b + 1) [] b α β depth move

/-- The most calls that a search can take with `e` cells to fill: the first one, and for each of
the cells the most that a search can take with one cell less. -/
def callBound : Nat → Nat
  | 0 => 1
  | e + 1 => 1 + (e + 1) * callBound e

/-! ## As many as the search says -/

theorem length_sweepCalls {cfg : Pruning} {child : Scorer} {below : Lister} {depth : Int}
    (h : ∀ played b α β d m, (below played b α β d m).length = (child b α β d m).nodes)
    (played cells : List Nat) (b : Board) (α β best : Score) :
    (sweepCalls cfg child below played depth cells b α β best).length
      = (sweep cfg child depth cells b α β best).nodes := by
  induction cells generalizing b α β best with
  | nil => rfl
  | cons cell rest ih =>
    rw [sweepCalls, sweep]
    cases b[cell]? with
    | none => rfl
    | some c =>
      by_cases hc : c = Cell.empty
      · simp only [hc, if_true]
        cases hs : (child (b.set cell (Side.atDepth depth).piece) α β (depth + 1) cell).score with
        | error f => simp only [h]
        | ok score =>
          cases hw : weigh cfg (Side.atDepth depth) α β best score with
          | stop s => simp only [hw, h]
          | resume α' β' best' => simp only [hw, List.length_append, h, ih, Outcome.charge]
      · simp only [hc, if_false, ih]

theorem length_nodeCalls {cfg : Pruning} {child : Scorer} {below : Lister}
    (h : ∀ played b α β d m, (below played b α β d m).length = (child b α β d m).nodes)
    (played : List Nat) (b : Board) (α β : Score) (depth move : Int) :
    (nodeCalls cfg child below played b α β depth move).length
      = (node cfg child b α β depth move).nodes := by
  rw [nodeCalls, node, List.length_cons]
  cases hv : verdict b depth move with
  | error f => simp
  | ok v =>
    cases v with
    | some s => simp
    | none => simp only [length_sweepCalls h, Outcome.charge, Nat.add_comm]

theorem length_nestCalls (cfg : Pruning) (n : Nat) (played : List Nat) (b : Board) (α β : Score)
    (depth move : Int) :
    (nestCalls cfg noCall n played b α β depth move).length
      = (nest cfg noCall n b α β depth move).nodes := by
  induction n generalizing played b α β depth move with
  | zero => rfl
  | succ n ih => exact length_nodeCalls ih played b α β depth move

/-- **The list has as many calls as the search made.** -/
theorem length_calls (cfg : Pruning) (b : Board) (α β : Score) (depth move : Int) :
    (calls cfg b α β depth move).length = (minimax cfg b α β depth move).nodes :=
  length_nestCalls cfg (room b + 1) [] b α β depth move

end Noughts
