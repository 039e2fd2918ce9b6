import Noughts.Proofs.GameTree.Effort
import Noughts.Proofs.SearchTree

/-!
# What pruning saves

How many calls the search makes, with the cutoffs on and off and in one window or another, when
there are as many empty cells as the depth leaves moves.  Both statements are about trees that are
played to their ends (`Noughts.Proofs.GameTree.Effort`); a call that is refused makes one call in
any configuration and any window (`minimax_nodes_le`).

* `minimax_pruning_saves`: switching a cutoff on never makes the search longer.
* `minimax_narrower_window`: nor does narrowing the window, with window pruning on.

That the search with both cutoffs on makes no more calls than with the decisive one alone is not
obvious: window pruning answers with bounds, so a child that wins need not be reported as a win, and
the decisive cutoff misses it.  The far end of the window is then no further than the bound, and
window pruning stops at the same child.
-/

set_option autoImplicit false

namespace Noughts

variable {b : Board} {depth : Int}

/-- Two searches of one position compare as the searches of a complete tree do. -/
theorem minimax_nodes_le (hb : 9 ≤ b.length) (hd : depth ≤ fullDepth)
    (hr : fullDepth - depth ≤ room b) (move : Int) {cfg cfg' : Pruning} {α β α' β' : Score}
    (h : ∀ t : Tree, t.Complete → (t.search cfg α β).nodes ≤ (t.search cfg' α' β').nodes) :
    (minimax cfg b α β depth move).nodes ≤ (minimax cfg' b α' β' depth move).nodes := by
  cases hv : verdict b depth move with
  | error f => rw [minimax_of_fault hv, minimax_of_fault hv]
  | ok v =>
    rw [minimax_eq_search hb hv, minimax_eq_search hb hv]
    exact h _ (complete_gameTree hb hv hd hr)

/-- **Switching a cutoff on never increases the work**, in any window: with both on there are no
more calls than with either alone, and with either alone no more than with none. -/
theorem minimax_pruning_saves (hb : 9 ≤ b.length) (hd : depth ≤ 8) (hr : 8 - depth ≤ room b)
    (move : Int) (α β : Score) :
    (minimax ⟨true, true⟩ b α β depth move).nodes ≤ (minimax ⟨true, false⟩ b α β depth move).nodes
      ∧ (minimax ⟨true, false⟩ b α β depth move).nodes
        ≤ (minimax ⟨false, false⟩ b α β depth move).nodes
      ∧ (minimax ⟨true, true⟩ b α β depth move).nodes
        ≤ (minimax ⟨false, true⟩ b α β depth move).nodes
      ∧ (minimax ⟨false, true⟩ b α β depth move).nodes
        ≤ (minimax ⟨false, false⟩ b α β depth move).nodes := by
  refine ⟨?_, ?_, ?_, ?_⟩
  · exact minimax_nodes_le hb hd hr move fun t ht => ht.search_nodes_decisive true α β
  · exact minimax_nodes_le hb hd hr move fun t _ => t.search_nodes_le_plain .windowed α β α β
  · exact minimax_nodes_le hb hd hr move fun t ht => ht.search_nodes_both α β α β
  · exact minimax_nodes_le hb hd hr move fun t ht => ht.search_nodes_decisive false α β

/-- With four cells to fill at depth `4`, a nought to move, in a window that ends at a tie. -/
theorem minimax_pruning_saves_midgame :
    9 ≤ ([0, 1, 0, 1, 2, 0, 0, 2, 1] : Board).length ∧ (4 : Int) ≤ 8
      ∧ 8 - (4 : Int) ≤ room [0, 1, 0, 1, 2, 0, 0, 2, 1]
      ∧ (minimax ⟨true, true⟩ [0, 1, 0, 1, 2, 0, 0, 2, 1] 2 5 4 1).nodes
        ≤ (minimax ⟨true, false⟩ [0, 1, 0, 1, 2, 0, 0, 2, 1] 2 5 4 1).nodes
      ∧ (minimax ⟨true, false⟩ [0, 1, 0, 1, 2, 0, 0, 2, 1] 2 5 4 1).nodes
        ≤ (minimax ⟨false, false⟩ [0, 1, 0, 1, 2, 0, 0, 2, 1] 2 5 4 1).nodes
      ∧ (minimax ⟨true, true⟩ [0, 1, 0, 1, 2, 0, 0, 2, 1] 2 5 4 1).nodes
        ≤ (minimax ⟨false, true⟩ [0, 1, 0, 1, 2, 0, 0, 2, 1] 2 5 4 1).nodes
      ∧ (minimax ⟨false, true⟩ [0, 1, 0, 1, 2, 0, 0, 2, 1] 2 5 4 1).nodes
        ≤ (minimax ⟨false, false⟩ [0, 1, 0, 1, 2, 0, 0, 2, 1] 2 5 4 1).nodes :=
  ⟨by decide, by decide, by decide, minimax_pruning_saves (by decide) (by decide) (by decide) 1 2 5⟩

/-- In the widest window every cutoff saves something there. -/
example : (minimax ⟨true, true⟩ [0, 1, 0, 1, 2, 0, 0, 2, 1] 2 9 4 1).nodes = 41
    ∧ (minimax ⟨true, false⟩ [0, 1, 0, 1, 2, 0, 0, 2, 1] 2 9 4 1).nodes = 43
    ∧ (minimax ⟨false, true⟩ [0, 1, 0, 1, 2, 0, 0, 2, 1] 2 9 4 1).nodes = 45
    ∧ (minimax .plain [0, 1, 0, 1, 2, 0, 0, 2, 1] 2 9 4 1).nodes = 61 :=
  ⟨rfl, rfl, rfl, rfl⟩

/-- **A narrower window never costs more**, with the decisive cutoff on or off. -/
theorem minimax_narrower_window (hb : 9 ≤ b.length) (hd : depth ≤ 8) (hr : 8 - depth ≤ room b)
    (move : Int) (d : Bool) {α β α' β' : Score} (hα : α' ≤ α) (hw : α < β) (hβ : β ≤ β') :
    (minimax ⟨true, d⟩ b α β depth move).nodes
      ≤ (minimax ⟨true, d⟩ b α' β' depth move).nodes :=
  minimax_nodes_le hb hd hr move fun _ ht => ht.search_nodes_narrower d hα hw hβ

/-- The same position in the window from a tie to a win, inside the widest one. -/
theorem minimax_narrower_window_midgame :
    9 ≤ ([0, 1, 0, 1, 2, 0, 0, 2, 1] : Board).length ∧ (4 : Int) ≤ 8
      ∧ 8 - (4 : Int) ≤ room [0, 1, 0, 1, 2, 0, 0, 2, 1]
      ∧ Score.bottom ≤ Score.tie ∧ Score.tie < Score.win ∧ Score.win ≤ Score.top
      ∧ (minimax ⟨true, true⟩ [0, 1, 0, 1, 2, 0, 0, 2, 1] Score.tie Score.win 4 1).nodes
        ≤ (minimax ⟨true, true⟩ [0, 1, 0, 1, 2, 0, 0, 2, 1] Score.bottom Score.top 4 1).nodes :=
  ⟨by decide, by decide, by decide, by decide, by decide, by decide,
    minimax_narrower_window (by decide) (by decide) (by decide) 1 true (by decide) (by decide)
      (by decide)⟩

end Noughts
