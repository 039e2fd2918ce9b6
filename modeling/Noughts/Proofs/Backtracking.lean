import Noughts.Game

/-!
# The search takes its moves back

A sweep plays on the board that the call below it left, so the search is the recursion it looks
like only because every call hands back the board it was given.  This file proves that, and what
follows from it.

* `minimax_board`: a search that finds a score leaves the board as it was.  A search that meets a
  fault does not, and nothing is said about it here.
* `room_set`: a move on one of the nine cells leaves one empty cell less, which is what bounds the
  nesting.  What a move does to the other counts stands beside it (`count_set_self`,
  `count_set_other`).
* `minimax_eq_node`: the search is one call over itself.  The nesting depth and the scorer at the
  bottom of it are gone, and later files never mention `nest`.
-/

set_option autoImplicit false

namespace Noughts

variable {cfg : Pruning} {child child' : Scorer}

/-! ## The board comes back -/

/-- A scorer that leaves the board as it was whenever it finds a score. -/
def Restores (child : Scorer) : Prop :=
  ∀ (b : Board) (α β : Score) (depth move : Int) (s : Score),
    (child b α β depth move).score = .ok s → (child b α β depth move).board = b

/-- Taking a move back. -/
theorem set_set_empty {b : Board} {cell : Nat} (piece : Cell) (h : b[cell]? = some Cell.empty) :
    (b.set cell piece).set cell Cell.empty = b := by
  obtain ⟨hlt, hget⟩ := List.getElem?_eq_some_iff.mp h
  rw [List.set_set, ← hget, List.set_getElem_self]

/-- Playing on an empty cell, scoring what comes of it, and taking the move back. -/
theorem Restores.taken_back (hc : Restores child) {b : Board} {cell : Nat} {piece : Cell}
    {α β s : Score} {depth move : Int} (h : b[cell]? = some Cell.empty)
    (hs : (child (b.set cell piece) α β depth move).score = .ok s) :
    (child (b.set cell piece) α β depth move).board.set cell Cell.empty = b := by
  rw [hc _ _ _ _ _ _ hs, set_set_empty piece h]

theorem sweep_board (hc : Restores child) {depth : Int} {cells : List Nat} {b : Board}
    {α β best s : Score} (h : (sweep cfg child depth cells b α β best).score = .ok s) :
    (sweep cfg child depth cells b α β best).board = b := by
  -- In turn: no cell is left, a cell is missing, a fault below, a child that ends the sweep, a child
  -- after which it goes on, a cell that is taken.
  fun_induction sweep cfg child depth cells b α β best with
  | case1 => rfl
  | case2 => cases h
  | case3 => cases h
  | case4 cell rest b α β best side below t hs restored s hw hb => exact hc.taken_back hb hs
  | case5 cell rest b α β best side below t hs restored α' β' best' hw hb ih =>
    exact (ih h).trans (hc.taken_back hb hs)
  | case6 cell rest b α β best c hb hce ih => exact ih h

theorem restores_node (hc : Restores child) : Restores (node cfg child) := by
  intro b α β depth move s h
  rw [node] at h ⊢
  cases hv : verdict b depth move with
  | error f => simp [hv] at h
  | ok v =>
    cases v with
    | some t => rfl
    | none =>
      simp only [hv] at h ⊢
      exact sweep_board hc h

theorem restores_nest (n : Nat) : Restores (nest cfg noCall n) := by
  induction n with
  | zero => intro b α β depth move s _; rfl
  | succ n ih => exact restores_node ih

theorem restores_minimax : Restores (minimax cfg) := by
  intro b α β depth move s h
  exact restores_nest _ b α β depth move s h

/-- **A search that finds a score leaves the board as it was.** -/
theorem minimax_board {b : Board} {α β : Score} {depth move : Int} {s : Score}
    (h : (minimax cfg b α β depth move).score = .ok s) :
    (minimax cfg b α β depth move).board = b :=
  restores_minimax b α β depth move s h

/-! ## A move takes up room -/

theorem mem_cellOrder {cell : Nat} : cell ∈ cellOrder ↔ cell < 9 := by
  simp only [cellOrder, List.mem_cons, List.not_mem_nil, or_false]
  omega

/-- Replacing a piece by another leaves one less of it. -/
theorem count_set_of_ne {b : Board} {cell : Nat} {p q : Cell} (h : b[cell]? = some p)
    (hq : q ≠ p) : (b.set cell q).count p + 1 = b.count p := by
  obtain ⟨hlt, hget⟩ := List.getElem?_eq_some_iff.mp h
  have hpos : 0 < b.count p := List.count_pos_iff.mpr (hget ▸ List.getElem_mem hlt)
  rw [List.count_set hlt, hget]
  simp [hq]
  omega

/-- Replacing a piece by another leaves one more of the other. -/
theorem count_set_self {b : Board} {cell : Nat} {p q : Cell} (h : b[cell]? = some p)
    (hq : q ≠ p) : (b.set cell q).count q = b.count q + 1 := by
  obtain ⟨hlt, hget⟩ := List.getElem?_eq_some_iff.mp h
  rw [List.count_set hlt, hget]
  simp [hq.symm]

/-- Replacing a piece by another changes no third count. -/
theorem count_set_other {b : Board} {cell : Nat} {p q r : Cell} (h : b[cell]? = some p)
    (hp : p ≠ r) (hq : q ≠ r) : (b.set cell q).count r = b.count r := by
  obtain ⟨hlt, hget⟩ := List.getElem?_eq_some_iff.mp h
  rw [List.count_set hlt, hget]
  simp [hp, hq]

/-- **A move leaves one empty cell less.** -/
theorem room_set {b : Board} {cell : Nat} {piece : Cell} (hcell : cell < 9)
    (hp : piece ≠ Cell.empty) (h : b[cell]? = some Cell.empty) :
    room (b.set cell piece) + 1 = room b := by
  have hget : (b.take 9)[cell]? = some Cell.empty := by
    rw [List.getElem?_take_of_lt hcell, h]
  rw [room, room, List.take_set]
  exact count_set_of_ne hget hp

/-! ## One call over itself -/

/-- A sweep asks its scorer only about the moves on empty cells, so two scorers that agree there
make the same sweep. -/
theorem sweep_congr (hc : Restores child) {depth : Int} {cells : List Nat} {b : Board}
    (h : ∀ cell ∈ cells, b[cell]? = some Cell.empty → ∀ α β,
      child (b.set cell (Side.atDepth depth).piece) α β (depth + 1) cell
        = child' (b.set cell (Side.atDepth depth).piece) α β (depth + 1) cell)
    (α β best : Score) :
    sweep cfg child depth cells b α β best = sweep cfg child' depth cells b α β best := by
  induction cells generalizing α β best with
  | nil => rfl
  | cons cell rest ih =>
    have hrest := ih fun x hx => h x (List.mem_cons_of_mem _ hx)
    rw [sweep, sweep]
    cases hb : b[cell]? with
    | none => rfl
    | some c =>
      by_cases hce : c = Cell.empty
      · subst hce
        simp only [if_true, ← h cell List.mem_cons_self hb]
        cases hs : (child (b.set cell (Side.atDepth depth).piece) α β (depth + 1) cell).score with
        | error f => rfl
        | ok t =>
          simp only [hc.taken_back hb hs, hrest]
      · simp only [hce, if_false, hrest]

theorem node_congr (hc : Restores child) {b : Board} {depth : Int}
    (h : ∀ cell < 9, b[cell]? = some Cell.empty → ∀ α β,
      child (b.set cell (Side.atDepth depth).piece) α β (depth + 1) cell
        = child' (b.set cell (Side.atDepth depth).piece) α β (depth + 1) cell)
    (α β : Score) (move : Int) :
    node cfg child b α β depth move = node cfg child' b α β depth move := by
  rw [node, node, sweep_congr hc fun cell hcell => h cell (mem_cellOrder.mp hcell)]

/-- The nesting is deep enough: with more room for calls than there are empty cells, it does not
matter how much more, nor what stands below the last of them. -/
theorem nest_eq_minimax (ground : Scorer) {n : Nat} {b : Board} (h : room b < n) (α β : Score)
    (depth move : Int) :
    nest cfg ground n b α β depth move = minimax cfg b α β depth move := by
  induction n generalizing b α β depth move with
  | zero => omega
  | succ n ih =>
    refine (node_congr (restores_nest (room b)) (fun cell hcell hb α β => ?_) α β move).symm
    have hroom := room_set hcell (Side.atDepth depth).piece_ne_empty hb
    rw [ih (by omega), minimax, hroom]

/-- **The search is one call over itself.** -/
theorem minimax_eq_node (b : Board) (α β : Score) (depth move : Int) :
    minimax cfg b α β depth move = node cfg (minimax cfg) b α β depth move := by
  refine node_congr (restores_nest (room b)) (fun cell hcell hb α β => ?_) α β move
  have hroom := room_set hcell (Side.atDepth depth).piece_ne_empty hb
  exact nest_eq_minimax noCall (by omega) α β _ _

end Noughts
