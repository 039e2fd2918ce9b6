import Noughts.Proofs.Backtracking
import Noughts.Proofs.OwnedLines
import Noughts.Proofs.GameTree.Cutoffs

/-!
# The game tree that a search walks

A call of the search belongs to a tree: a leaf when the call is decided at once, and otherwise a
fork with a child for each empty cell among the nine (`gameTree`).  On a board that has all nine
cells, searching the position is searching that tree, score by score and call by call
(`minimax_eq_search`), and so what `Noughts.Proofs.GameTree.Cutoffs` says of trees holds of the
search.

Two things can be read off a position without walking it: the leaves of its tree are outcomes
(`decided_gameTree`), and if there are as many empty cells as the depth leaves moves, then every
fork has a child (`complete_gameTree`).
-/

set_option autoImplicit false

namespace Noughts

/-! ## Turns -/

namespace Side

/-- The side that does not move. -/
def other : Side → Side
  | maximizer => minimizer
  | minimizer => maximizer

@[simp] theorem other_other (side : Side) : side.other.other = side := by
  cases side <;> rfl

theorem piece_other_ne (side : Side) : side.other.piece ≠ side.piece := by
  cases side <;> decide

theorem piece_inj {side side' : Side} (h : side.piece = side'.piece) : side = side' := by
  revert h
  cases side <;> cases side' <;> decide

theorem atDepth_add_one (depth : Int) : atDepth (depth + 1) = (atDepth depth).other := by
  rw [atDepth, atDepth]
  by_cases h : depth % 2 = 1
  · rw [if_pos h, if_neg (by omega)]
    rfl
  · rw [if_neg h, if_pos (by omega)]
    rfl

theorem piece_atDepth (depth : Int) :
    (atDepth depth).piece = if depth % 2 = 0 then Cell.nought else Cell.cross := by
  rw [atDepth]
  by_cases h : depth % 2 = 0
  · rw [if_pos h, if_neg (by omega)]
    rfl
  · rw [if_neg h, if_pos (by omega)]
    rfl

end Side

/-! ## The tree of a position -/

/-- The empty cells among the nine, in the order in which they are tried. -/
def openCells (b : Board) : List Nat :=
  cellOrder.filter fun cell => decide (b[cell]? = some Cell.empty)

theorem mem_openCells {b : Board} {cell : Nat} :
    cell ∈ openCells b ↔ cell < 9 ∧ b[cell]? = some Cell.empty := by
  rw [openCells, List.mem_filter, mem_cellOrder, decide_eq_true_eq]

/-- On nine cells the legal moves are the cells that a sweep tries. -/
theorem legalMoves_eq_openCells {b : Board} (h : b.length = 9) : b.legalMoves = openCells b := by
  rw [Board.legalMoves, openCells, h]
  rfl

/-- The position after the move that a depth asks for. -/
def after (b : Board) (depth : Int) (cell : Nat) : Board :=
  b.set cell (Side.atDepth depth).piece

theorem length_after (b : Board) (depth : Int) (cell : Nat) :
    (after b depth cell).length = b.length :=
  List.length_set

theorem getElem?_after_self {b : Board} {cell : Nat} (depth : Int)
    (h : b[cell]? = some Cell.empty) :
    (after b depth cell)[cell]? = some (Side.atDepth depth).piece :=
  List.getElem?_set_self (List.getElem?_eq_some_iff.mp h).1

theorem getElem?_after_of_ne (b : Board) {cell cell' : Nat} (depth : Int) (h : cell ≠ cell') :
    (after b depth cell)[cell']? = b[cell']? :=
  List.getElem?_set_ne h

/-- What stands on a cell after a move. -/
theorem getElem?_after {b : Board} {cell : Nat} (h : cell < b.length) (depth : Int) (c : Nat) :
    (after b depth cell)[c]? = if cell = c then some (Side.atDepth depth).piece else b[c]? := by
  by_cases he : cell = c
  · subst he
    rw [if_pos rfl, after, List.getElem?_set_self h]
  · rw [if_neg he, getElem?_after_of_ne b depth he]

theorem room_after {b : Board} {cell : Nat} (depth : Int) (h : cell ∈ openCells b) :
    room (after b depth cell) + 1 = room b :=
  room_set (mem_openCells.mp h).1 (Side.piece_ne_empty _) (mem_openCells.mp h).2

/-- Induction along the moves of a search: what holds of a call as soon as it holds of the calls
that it can make holds of every call. -/
theorem call_induction {P : Board → Int → Int → Prop}
    (step : ∀ b depth move,
      (∀ cell ∈ openCells b, P (after b depth cell) (depth + 1) (cell : Int)) → P b depth move)
    (b : Board) (depth move : Int) : P b depth move := by
  induction hn : room b using Nat.strongRecOn generalizing b depth move with
  | ind n ih =>
    refine step b depth move fun cell hcell => ?_
    have hroom := room_after depth hcell
    exact ih _ (by omega) _ _ _ rfl

/-- **The tree of a position**, for a search that starts at the given depth with the given last
move. -/
def gameTree (b : Board) (depth move : Int) : Tree :=
  match verdict b depth move with
  | .ok (some s) => .leaf s
  | _ => .fork (Side.atDepth depth)
      ((openCells b).attach.map fun cell => gameTree (after b depth cell.1) (depth + 1) cell.1)
termination_by room b
decreasing_by
  have := room_after depth cell.2
  omega

/-- The trees of the calls that a call can make, in the order in which they are made. -/
def children (b : Board) (depth : Int) : List Tree :=
  (openCells b).map fun cell => gameTree (after b depth cell) (depth + 1) cell

theorem gameTree_of_over {b : Board} {depth move : Int} {s : Score}
    (h : verdict b depth move = .ok (some s)) : gameTree b depth move = .leaf s := by
  rw [gameTree, h]

theorem gameTree_of_open {b : Board} {depth move : Int} (h : verdict b depth move = .ok none) :
    gameTree b depth move = .fork (Side.atDepth depth) (children b depth) := by
  rw [gameTree, h, children]
  simp

/-- A move of the search leads to a call that does not fault. -/
theorem verdict_after {b : Board} (hb : 9 ≤ b.length) (depth : Int) {cell : Nat}
    (h : cell ∈ openCells b) : ∃ v, verdict (after b depth cell) (depth + 1) cell = .ok v :=
  verdict_natCast (by rwa [length_after]) (depth + 1) (mem_openCells.mp h).1

/-! ## Searching the position is searching its tree -/

variable {cfg : Pruning}

/-- A sweep is a search of the children, if its scorer searches each of them and takes the move
back. -/
theorem sweep_eq_searchAll {child : Scorer} (subtree : Nat → Tree) {depth : Int} {b : Board}
    (hb : 9 ≤ b.length) {cells : List Nat} (hcells : ∀ cell ∈ cells, cell < 9)
    (h : ∀ cell ∈ openCells b, ∀ α β,
      child (after b depth cell) α β (depth + 1) cell
        = ⟨.ok ((subtree cell).search cfg α β).score, ((subtree cell).search cfg α β).nodes,
            after b depth cell⟩) (α β best : Score) :
    sweep cfg child depth cells b α β best =
      let found := Tree.searchAll cfg (Side.atDepth depth)
        ((cells.filter fun cell => decide (b[cell]? = some Cell.empty)).map subtree) α β best
      ⟨.ok found.score, found.nodes, b⟩ := by
  induction cells generalizing α β best with
  | nil => rfl
  | cons cell rest ih =>
    have ih := ih fun x hx => hcells x (List.mem_cons_of_mem _ hx)
    have hcell := hcells cell List.mem_cons_self
    obtain ⟨c, hget⟩ := exists_getElem? (Nat.lt_of_lt_of_le hcell hb)
    rw [sweep, hget]
    by_cases hc : c = Cell.empty
    · subst hc
      have hchild := h cell (mem_openCells.mpr ⟨hcell, hget⟩)
      rw [after] at hchild
      rw [List.filter_cons_of_pos (by simpa using hget), List.map_cons, Tree.searchAll]
      simp only [if_true, hchild, set_set_empty _ hget]
      cases hw : weigh cfg (Side.atDepth depth) α β best
          ((subtree cell).search cfg α β).score with
      | stop s => rfl
      | resume α' β' best' => simp only [ih, Outcome.charge]
    · rw [List.filter_cons_of_neg (by simpa [hget] using hc)]
      simp only [hc, if_false, ih]

/-- **Searching a position is searching its tree**, and the board comes back as it was. -/
theorem minimax_eq_search {b : Board} (hb : 9 ≤ b.length) {depth move : Int} {v : Option Score}
    (hv : verdict b depth move = .ok v) (α β : Score) :
    minimax cfg b α β depth move
      = ⟨.ok ((gameTree b depth move).search cfg α β).score,
          ((gameTree b depth move).search cfg α β).nodes, b⟩ := by
  induction b, depth, move using call_induction generalizing v α β with
  | step b depth move ih =>
    rw [minimax_eq_node, node, hv]
    cases v with
    | some s => rw [gameTree_of_over hv, Tree.search]
    | none =>
      have hchild : ∀ cell ∈ openCells b, ∀ α β,
          minimax cfg (after b depth cell) α β (depth + 1) cell
            = ⟨.ok ((gameTree (after b depth cell) (depth + 1) cell).search cfg α β).score,
                ((gameTree (after b depth cell) (depth + 1) cell).search cfg α β).nodes,
                after b depth cell⟩ := by
        intro cell hcell α β
        obtain ⟨v, hv⟩ := verdict_after hb depth hcell
        exact ih cell hcell (by rwa [length_after]) hv α β
      have hsweep := sweep_eq_searchAll (fun cell => gameTree (after b depth cell) (depth + 1) cell)
        hb (fun _ => mem_cellOrder.mp) hchild α β (Side.atDepth depth).seed
      simp only [hsweep, gameTree_of_open hv, Tree.search, children, openCells, Outcome.charge]

/-- With both cutoffs off, a search finds the value of its tree and enters every node. -/
theorem minimax_plain {b : Board} (hb : 9 ≤ b.length) {depth move : Int} {v : Option Score}
    (hv : verdict b depth move = .ok v) (α β : Score) :
    minimax .plain b α β depth move
      = ⟨.ok (gameTree b depth move).value, (gameTree b depth move).size, b⟩ := by
  rw [minimax_eq_search hb hv, Tree.search_plain]

/-- A call that is refused at once ends in that fault, in every window and configuration. -/
theorem minimax_of_fault {b : Board} {depth move : Int} {f : Fault}
    (hv : verdict b depth move = .error f) (α β : Score) :
    minimax cfg b α β depth move = ⟨.error f, 1, b⟩ := by
  rw [minimax_eq_node, node, hv]

/-! ## What the position says about its tree -/

theorem isOutcome_verdict {b : Board} {depth move : Int} {s : Score}
    (h : verdict b depth move = .ok (some s)) : IsOutcome s := by
  rcases verdict_cases b depth move with ⟨_, hv⟩ | ⟨f, _, hv⟩ | ⟨_, hv⟩ | ⟨p, _, _, hv⟩
  · rw [hv] at h
    cases h
  · rw [hv] at h
    cases h
  · rw [hv] at h
    by_cases hd : depth = fullDepth
    · rw [if_pos hd] at h
      cases h
      exact Or.inr (Or.inl rfl)
    · rw [if_neg hd] at h
      cases h
  · rw [hv] at h
    cases h
    by_cases hp : p = Cell.cross
    · rw [if_pos hp]
      exact Or.inl rfl
    · rw [if_neg hp]
      exact Or.inr (Or.inr rfl)

/-- A call that is not decided is not at the depth of a full board. -/
theorem depth_ne_of_verdict {b : Board} {depth move : Int} (h : verdict b depth move = .ok none) :
    depth ≠ fullDepth := by
  intro hd
  rcases verdict_cases b depth move with ⟨hlt, _⟩ | ⟨f, _, hv⟩ | ⟨_, hv⟩ | ⟨p, _, _, hv⟩
  · simp only [hd, fullDepth, firstLineDepth] at hlt
    omega
  · rw [hv] at h
    cases h
  · rw [hv, if_pos hd] at h
    cases h
  · rw [hv] at h
    cases h

/-- A call on one of the nine cells is over or open. -/
theorem gameTree_cases {b : Board} {depth move : Int} {v : Option Score}
    (hv : verdict b depth move = .ok v) :
    (∃ s, IsOutcome s ∧ gameTree b depth move = .leaf s) ∨
      depth ≠ fullDepth
        ∧ gameTree b depth move = .fork (Side.atDepth depth) (children b depth) := by
  cases v with
  | some s => exact Or.inl ⟨s, isOutcome_verdict hv, gameTree_of_over hv⟩
  | none => exact Or.inr ⟨depth_ne_of_verdict hv, gameTree_of_open hv⟩

/-- The leaves of the tree of a position are outcomes. -/
theorem decided_gameTree {b : Board} (hb : 9 ≤ b.length) {depth move : Int} {v : Option Score}
    (hv : verdict b depth move = .ok v) : (gameTree b depth move).Decided := by
  induction b, depth, move using call_induction generalizing v with
  | step b depth move ih =>
    rcases gameTree_cases hv with ⟨s, hs, ht⟩ | ⟨_, ht⟩
    · rw [ht]
      exact .leaf hs
    · rw [ht]
      refine .fork fun t hmem => ?_
      obtain ⟨cell, hcell, rfl⟩ := List.mem_map.mp hmem
      obtain ⟨v, hv⟩ := verdict_after hb depth hcell
      exact ih cell hcell (by rwa [length_after]) hv

theorem exists_mem_openCells {b : Board} (h : 0 < room b) : ∃ cell, cell ∈ openCells b := by
  obtain ⟨cell, hlt, hget⟩ := List.mem_iff_getElem.mp (List.count_pos_iff.mp h)
  rw [List.length_take] at hlt
  rw [List.getElem_take] at hget
  exact ⟨cell, mem_openCells.mpr ⟨by omega, List.getElem?_eq_some_iff.mpr ⟨by omega, hget⟩⟩⟩

/-- **If there are as many empty cells as the depth leaves moves, every branch is played to its
end.** -/
theorem complete_gameTree {b : Board} (hb : 9 ≤ b.length) {depth move : Int} {v : Option Score}
    (hv : verdict b depth move = .ok v) (hd : depth ≤ fullDepth)
    (hr : fullDepth - depth ≤ room b) : (gameTree b depth move).Complete := by
  induction b, depth, move using call_induction generalizing v with
  | step b depth move ih =>
    rcases gameTree_cases hv with ⟨s, hs, ht⟩ | ⟨hne, ht⟩
    · rw [ht]
      exact .leaf hs
    · rw [ht]
      refine .fork ?_ fun t hmem => ?_
      · have hroom : 0 < room b := by simp only [fullDepth] at *; omega
        obtain ⟨cell, hcell⟩ := exists_mem_openCells hroom
        exact List.ne_nil_of_mem (List.mem_map_of_mem hcell)
      · obtain ⟨cell, hcell, rfl⟩ := List.mem_map.mp hmem
        have hroom := room_after depth hcell
        obtain ⟨v, hv⟩ := verdict_after hb depth hcell
        exact ih cell hcell (by rwa [length_after]) hv (by simp only [fullDepth] at *; omega)
          (by simp only [fullDepth] at *; omega)

/-- **A search that can be played to its end finds the value of its tree** in every configuration,
if the window lies around all outcomes. -/
theorem minimax_complete {b : Board} (hb : 9 ≤ b.length) {depth move : Int} {v : Option Score}
    (hv : verdict b depth move = .ok v) (hd : depth ≤ fullDepth)
    (hr : fullDepth - depth ≤ room b) (cfg : Pruning) {α β : Score} (hα : α < Score.lose)
    (hβ : Score.win < β) :
    (minimax cfg b α β depth move).score = .ok (gameTree b depth move).value := by
  rw [minimax_eq_search hb hv, (complete_gameTree hb hv hd hr).search_eq_value cfg hα hβ]

end Noughts
