import Noughts.Proofs.SearchTree

/-!
# The scores that come out

A search invents no score: what it answers is the score of some call below it that was decided at
once, or the seed that one of its sweeps started from.  That holds on a board of any length, where
there is no game tree to speak of, and so it is proved of the sweep itself: `Yields` is what a
scorer is known to answer, and every way of building a scorer keeps it.

Whether a seed can come out is a question about the moves that are left (`minimax_scores`).
-/

set_option autoImplicit false

namespace Noughts

variable {cfg : Pruning} {child : Scorer} {P : Score → Prop}

/-- Every score that the scorer finds satisfies `P`. -/
def Yields (child : Scorer) (P : Score → Prop) : Prop :=
  ∀ (b : Board) (α β : Score) (depth move : Int) (s : Score),
    (child b α β depth move).score = .ok s → P s

/-- A sweep ends with a score of one of its children, or with the best score it was given. -/
theorem sweep_score (hc : Yields child P) {depth : Int} {cells : List Nat} {b : Board}
    {α β best s : Score} (hbest : P best)
    (h : (sweep cfg child depth cells b α β best).score = .ok s) : P s := by
  -- In turn: no cell is left, a cell is missing, a fault below, a child that ends the sweep, a child
  -- after which it goes on, a cell that is taken.
  fun_induction sweep cfg child depth cells b α β best with
  | case1 =>
    cases h
    exact hbest
  | case2 => cases h
  | case3 => cases h
  | case4 cell rest b α β best side below t hs restored u hw _ =>
    cases h
    rw [score_of_stop hw]
    exact hc _ _ _ _ _ _ hs
  | case5 cell rest b α β best side below t hs restored α' β' best' hw _ ih =>
    rcases best_of_resume hw with rfl | rfl
    · exact ih (hc _ _ _ _ _ _ hs) h
    · exact ih hbest h
  | case6 cell rest b α β best c _ _ ih => exact ih hbest h

theorem yields_node (houtcome : ∀ s, IsOutcome s → P s) (hseed : ∀ side : Side, P side.seed)
    (hc : Yields child P) : Yields (node cfg child) P := by
  intro b α β depth move s h
  rw [node] at h
  cases hv : verdict b depth move with
  | error f => simp [hv] at h
  | ok v =>
    cases v with
    | some t =>
      simp only [hv, Except.ok.injEq] at h
      exact h ▸ houtcome t (isOutcome_verdict hv)
    | none =>
      simp only [hv] at h
      exact sweep_score hc (hseed _) h

theorem yields_nest (houtcome : ∀ s, IsOutcome s → P s) (hseed : ∀ side : Side, P side.seed)
    (n : Nat) : Yields (nest cfg noCall n) P := by
  induction n with
  | zero =>
    intro b α β depth move s h
    cases h
    exact houtcome _ (Or.inr (Or.inl rfl))
  | succ n ih => exact yields_node houtcome hseed ih

/-- **No score but an outcome or a seed**, on a board of any length and with any pieces, depth, move
and window.  If the board has its nine cells, and as many of them are empty as the depth leaves
moves, no seed comes out either. -/
theorem minimax_scores {b : Board} {α β : Score} {depth move : Int} {s : Score}
    (h : (minimax cfg b α β depth move).score = .ok s) :
    (IsOutcome s ∨ s = Score.bottom ∨ s = Score.top)
      ∧ (9 ≤ b.length → depth ≤ fullDepth → fullDepth - depth ≤ room b → IsOutcome s) := by
  refine ⟨?_, fun hb hd hr => ?_⟩
  · refine yields_nest (P := fun s => IsOutcome s ∨ s = Score.bottom ∨ s = Score.top)
      (fun s hs => Or.inl hs) (fun side => ?_) (room b + 1) b α β depth move s h
    cases side with
    | maximizer => exact Or.inr (Or.inl rfl)
    | minimizer => exact Or.inr (Or.inr rfl)
  · cases hv : verdict b depth move with
    | error f =>
      rw [minimax_of_fault hv] at h
      cases h
    | ok v =>
      rw [minimax_eq_search hb hv] at h
      cases h
      exact (complete_gameTree hb hv hd hr).search_score cfg α β

/-- A window with its ends the wrong way round cuts a search short, but at an outcome. -/
theorem minimax_scores_inverted :
    (minimax {} [1, 2, 1, 2, 2, 1, 0, 0, 0] 7 3 5 0).score = .ok Score.lose
      ∧ (IsOutcome Score.lose ∨ Score.lose = Score.bottom ∨ Score.lose = Score.top)
      ∧ 9 ≤ ([1, 2, 1, 2, 2, 1, 0, 0, 0] : Board).length ∧ (5 : Int) ≤ fullDepth
      ∧ fullDepth - (5 : Int) ≤ room [1, 2, 1, 2, 2, 1, 0, 0, 0] ∧ IsOutcome Score.lose := by
  have hs : (minimax {} [1, 2, 1, 2, 2, 1, 0, 0, 0] 7 3 5 0).score = .ok Score.lose := rfl
  obtain ⟨hany, hgame⟩ := minimax_scores hs
  exact ⟨hs, hany, by decide, by decide, by decide, hgame (by decide) (by decide) (by decide)⟩

/-- With no cell left to fill and the depth not at its end, the seed of the side to move is the
score. -/
example : (minimax {} [1, 2, 1, 2, 2, 1, 2, 1, 2] 2 9 5 0).score = .ok Score.bottom := rfl

end Noughts
