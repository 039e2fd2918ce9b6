import Noughts.Proofs.SearchTree

/-!
# What pruning does to a score

The two cutoffs of the search, on any board that has its nine cells: any pieces on them, any depth,
any last move.

* `minimax_windowed`: with window pruning on, the score is exact inside the window, an upper bound
  at or below its lower end, and a lower bound at or above its upper end.  In the widest window it
  is always exact: a score at either end could only be a seed, and the value is then that seed too.
* `minimax_decisive`: the decisive cutoff changes no score in any window, provided that there are
  as many empty cells as the depth leaves moves.  Without that proviso a seed can be a child's
  score, and the cutoff can change what becomes of it.

Whether a call meets a fault is decided by its `verdict`, before anything is searched, and so in
the same way for every window and configuration.
-/

set_option autoImplicit false

namespace Noughts

/-! ## Window pruning -/

/-- A score and the value that it brackets in the widest window are the same, if each of them is
an outcome or a seed. -/
theorem Brackets.eq_of_widest {r v : Score} (h : Brackets Score.bottom Score.top r v)
    (hr : IsOutcome r ∨ ∃ side : Side, r = side.seed)
    (hv : IsOutcome v ∨ ∃ side : Side, v = side.seed) : r = v := by
  have hrange : ∀ s, (IsOutcome s ∨ ∃ side : Side, s = side.seed) →
      Score.bottom ≤ s ∧ s ≤ Score.top := by
    rintro s ((rfl | rfl | rfl) | ⟨side | side, rfl⟩) <;> decide
  obtain ⟨hr2, hr9⟩ := hrange r hr
  obtain ⟨hv2, hv9⟩ := hrange v hv
  refine le_antisymm ?_ ?_
  · -- At the lower end `v` cannot be smaller, and above it `v` is no smaller.
    rcases hr2.lt_or_eq with hlt | rfl
    · exact h.lower hlt
    · exact hv2
  · rcases hr9.lt_or_eq with hlt | rfl
    · exact h.upper hlt
    · exact hv9

/-- **Window pruning is sound for every window.**  Either the call meets a fault with and without
it, or both find a score.  The one found without, `v`, is the same in all windows, and the one
found with it, `r`, is `v` inside the window and a bound on `v` outside. -/
theorem minimax_windowed {b : Board} (hb : 9 ≤ b.length) (depth move : Int) {α β : Score}
    (hw : α < β) :
    (∃ f, (minimax .windowed b α β depth move).score = .error f
        ∧ ∀ α' β', (minimax .plain b α' β' depth move).score = .error f)
      ∨ ∃ r v, (minimax .windowed b α β depth move).score = .ok r
        ∧ (∀ α' β', (minimax .plain b α' β' depth move).score = .ok v)
        ∧ (r ≤ α → v ≤ r) ∧ (α < r → r < β → r = v) ∧ (β ≤ r → r ≤ v)
        ∧ (α = Score.bottom → β = Score.top → r = v) := by
  cases hv : verdict b depth move with
  | error f =>
    exact Or.inl ⟨f, by rw [minimax_of_fault hv], fun α' β' => by rw [minimax_of_fault hv]⟩
  | ok o =>
    have hbr := (gameTree b depth move).search_window α β
    refine Or.inr ⟨_, (gameTree b depth move).value, by rw [minimax_eq_search hb hv],
      fun α' β' => by rw [minimax_plain hb hv], ?_, ?_, ?_, ?_⟩
    · exact fun hr => hbr.upper (Int.lt_of_le_of_lt hr hw)
    · exact fun hα hβ => Int.le_antisymm (hbr.lower hα) (hbr.upper hβ)
    · exact fun hr => hbr.lower (Int.lt_of_lt_of_le hw hr)
    · rintro rfl rfl
      have hdec := decided_gameTree hb hv
      have hval := hdec.search_score .plain Score.bottom Score.top
      rw [Tree.search_plain] at hval
      exact hbr.eq_of_widest (hdec.search_score .windowed Score.bottom Score.top) hval

/-- A cross to move can win at once, and a search that stops at a tie says no more than that the
value is at least a tie. -/
theorem minimax_windowed_above :
    9 ≤ ([1, 2, 1, 2, 2, 1, 0, 0, 0] : Board).length ∧ (2 : Score) < 5 ∧
      ∃ r v, (minimax .windowed [1, 2, 1, 2, 2, 1, 0, 0, 0] 2 5 5 0).score = .ok r
        ∧ (∀ α' β', (minimax .plain [1, 2, 1, 2, 2, 1, 0, 0, 0] α' β' 5 0).score = .ok v)
        ∧ (r ≤ 2 → v ≤ r) ∧ (2 < r → r < 5 → r = v) ∧ (5 ≤ r → r ≤ v)
        ∧ ((2 : Score) = Score.bottom → (5 : Score) = Score.top → r = v) := by
  refine ⟨by decide, by decide, (minimax_windowed (by decide) 5 0 (by decide)).resolve_left ?_⟩
  rintro ⟨f, hf, -⟩
  have hok : (minimax .windowed [1, 2, 1, 2, 2, 1, 0, 0, 0] 2 5 5 0).score = .ok 5 := rfl
  rw [hok] at hf
  cases hf

/-! ## The decisive cutoff -/

/-- **The decisive cutoff never changes a score**, in any window and with window pruning on or off,
when there are as many empty cells as the depth leaves moves.  In the widest window all four
configurations find the same score. -/
theorem minimax_decisive {b : Board} (hb : 9 ≤ b.length) {depth : Int} (hd : depth ≤ 8)
    (hr : 8 - depth ≤ room b) (move : Int) :
    (∀ w α β, (minimax ⟨w, true⟩ b α β depth move).score
        = (minimax ⟨w, false⟩ b α β depth move).score)
      ∧ ∀ cfg cfg', (minimax cfg b Score.bottom Score.top depth move).score
        = (minimax cfg' b Score.bottom Score.top depth move).score := by
  cases hv : verdict b depth move with
  | error f =>
    exact ⟨fun w α β => by rw [minimax_of_fault hv, minimax_of_fault hv],
      fun cfg cfg' => by rw [minimax_of_fault hv, minimax_of_fault hv]⟩
  | ok o =>
    refine ⟨fun w α β => ?_, fun cfg cfg' => ?_⟩
    · rw [minimax_eq_search hb hv, minimax_eq_search hb hv,
        (complete_gameTree hb hv hd hr).search_decisive]
    · rw [minimax_complete hb hv hd hr cfg (by decide) (by decide),
        minimax_complete hb hv hd hr cfg' (by decide) (by decide)]

/-- With five cells to fill at depth `3`, a cross to move. -/
theorem minimax_decisive_midgame :
    9 ≤ ([1, 2, 0, 0, 1, 0, 2, 0, 0] : Board).length ∧ (3 : Int) ≤ 8
      ∧ 8 - (3 : Int) ≤ room [1, 2, 0, 0, 1, 0, 2, 0, 0]
      ∧ (∀ w α β, (minimax ⟨w, true⟩ [1, 2, 0, 0, 1, 0, 2, 0, 0] α β 3 6).score
        = (minimax ⟨w, false⟩ [1, 2, 0, 0, 1, 0, 2, 0, 0] α β 3 6).score)
      ∧ ∀ cfg cfg', (minimax cfg [1, 2, 0, 0, 1, 0, 2, 0, 0] Score.bottom Score.top 3 6).score
        = (minimax cfg' [1, 2, 0, 0, 1, 0, 2, 0, 0] Score.bottom Score.top 3 6).score :=
  ⟨by decide, by decide, by decide, minimax_decisive (by decide) (by decide) (by decide) 6⟩

/-- The proviso is needed: with one empty cell too few, a nought that wins at once stops looking,
and overlooks a fork that nobody can move at. -/
example : (minimax ⟨false, true⟩ [2, 1, 2, 2, 0, 1, 1, 0, 0] 2 9 4 0).score = .ok Score.lose
    ∧ (minimax .plain [2, 1, 2, 2, 0, 1, 1, 0, 0] 2 9 4 0).score = .ok Score.bottom :=
  ⟨rfl, rfl⟩

end Noughts
