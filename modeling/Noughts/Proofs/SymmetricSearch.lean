import Noughts.Proofs.Symmetry
import Noughts.Proofs.Runs

/-!
# The search does not see the orientation of the board

A search tries the cells in a fixed order, so on a transformed board every sweep tries the images
of the same moves in another order.  With both cutoffs off that makes no difference: the value of a
fork is the best of the values below it and its size is their sum, and neither depends on the order
(`Tree.bestOf_congr_perm`, `Tree.sizeAll_congr_perm`).  So the trees of two boards that are images
of one another have the same value and the same size (`Symmetry.Carries.gameTree_eq`).

With cutoffs on, the number of calls does depend on the order.  The score does not, as long as the
search finds the value of its tree.

`minimax_transform` puts this together, and draws the conclusion that lets three openings stand for
all nine.
-/

set_option autoImplicit false

namespace Noughts

/-! ## The order of the children -/

namespace Tree

theorem bestOf_congr_perm {ts us : List Tree} (h : (ts.map value).Perm (us.map value))
    (side : Side) (start : Score) : bestOf side start ts = bestOf side start us := by
  rw [bestOf_eq_foldr, bestOf_eq_foldr]
  exact h.foldr_eq start

theorem sizeAll_congr_perm {ts us : List Tree} (h : (ts.map size).Perm (us.map size)) :
    sizeAll ts = sizeAll us := by
  rw [sizeAll_eq_foldr, sizeAll_eq_foldr]
  exact h.foldr_eq 0

end Tree

namespace Symmetry.Carries

variable {s : Symmetry} {b t : Board} {cell : Nat}

theorem verdict_eq (h : s.Carries b t) (hcell : cell < 9) (depth : Int) :
    verdict t depth (s.landing cell : Nat) = verdict b depth (cell : Nat) := by
  rw [verdict, verdict, h.winnerThrough_eq hcell]

/-- What the children of a position and of its image are like is the same, up to their order. -/
theorem perm_children {α : Type} {f : Tree → α} (h : s.Carries b t) (depth : Int)
    (hf : ∀ c ∈ openCells b,
      f (gameTree (Noughts.after t depth (s.landing c)) (depth + 1) (s.landing c : Nat))
        = f (gameTree (Noughts.after b depth c) (depth + 1) (c : Nat))) :
    ((children t depth).map f).Perm ((children b depth).map f) := by
  rw [children, children, List.map_map, List.map_map]
  refine (h.perm_openCells.map _).trans (List.Perm.of_eq ?_)
  rw [List.map_map]
  exact List.map_congr_left hf

/-- **The trees of two boards that are images of one another** have the same value and the same
size. -/
theorem gameTree_eq (h : s.Carries b t) (hcell : cell < 9) (depth : Int) :
    (gameTree t depth (s.landing cell : Nat)).value = (gameTree b depth (cell : Nat)).value
      ∧ (gameTree t depth (s.landing cell : Nat)).size
        = (gameTree b depth (cell : Nat)).size := by
  suffices hall : ∀ (b : Board) (depth move : Int), ∀ {t : Board} {cell : Nat},
      move = cell → cell < 9 → s.Carries b t →
        (gameTree t depth (s.landing cell : Nat)).value = (gameTree b depth move).value
          ∧ (gameTree t depth (s.landing cell : Nat)).size = (gameTree b depth move).size from
    hall b depth cell rfl hcell h
  intro b depth move
  induction b, depth, move using call_induction with
  | step b depth move ih =>
    rintro t cell rfl hcell h
    have ih : ∀ c ∈ openCells b, _ := fun c hc =>
      ih c hc rfl (mem_openCells.mp hc).1 (h.after (mem_openCells.mp hc).1 depth)
    obtain ⟨v, hv⟩ := verdict_natCast h.nine_le_left depth hcell
    have hvt := h.verdict_eq hcell depth
    rw [hv] at hvt
    cases v with
    | some r =>
      rw [gameTree_of_over hv, gameTree_of_over hvt]
      exact ⟨rfl, rfl⟩
    | none =>
      rw [gameTree_of_open hv, gameTree_of_open hvt, Tree.value, Tree.value, Tree.size, Tree.size,
        Tree.bestOf_congr_perm (h.perm_children depth fun c hc => (ih c hc).1),
        Tree.sizeAll_congr_perm (h.perm_children depth fun c hc => (ih c hc).2)]
      exact ⟨rfl, rfl⟩

/-! ## Searching the image -/

/-- **With both cutoffs off, a search of the image is the same search**, score and calls. -/
theorem minimax_plain (h : s.Carries b t) (hcell : cell < 9) (depth : Int) (α β : Score) :
    ∃ v n, minimax .plain b α β depth (cell : Nat) = ⟨.ok v, n, b⟩
      ∧ minimax .plain t α β depth (s.landing cell : Nat) = ⟨.ok v, n, t⟩ := by
  obtain ⟨v, hv⟩ := verdict_natCast h.nine_le_left depth hcell
  obtain ⟨hvalue, hsize⟩ := h.gameTree_eq hcell depth
  refine ⟨_, _, Noughts.minimax_plain h.nine_le_left hv α β, ?_⟩
  rw [Noughts.minimax_plain h.nine_le_right ((h.verdict_eq hcell depth).trans hv), hvalue, hsize]

/-- **A search of the image finds the same score** in every configuration, if there are as many
empty cells as the depth leaves moves. -/
theorem minimax_complete (h : s.Carries b t) (hcell : cell < 9) {depth : Int}
    (hd : depth ≤ fullDepth) (hr : fullDepth - depth ≤ room b) (cfg : Pruning) :
    ∃ v, (minimax cfg b Score.bottom Score.top depth (cell : Nat)).score = .ok v
      ∧ (minimax cfg t Score.bottom Score.top depth (s.landing cell : Nat)).score = .ok v := by
  obtain ⟨v, hv⟩ := verdict_natCast h.nine_le_left depth hcell
  refine ⟨_, Noughts.minimax_complete h.nine_le_left hv hd hr cfg (by decide) (by decide), ?_⟩
  rw [Noughts.minimax_complete h.nine_le_right ((h.verdict_eq hcell depth).trans hv) hd
    (by rw [h.room_eq]; exact hr) cfg (by decide) (by decide), (h.gameTree_eq hcell depth).1]

end Symmetry.Carries

/-! ## Openings -/

theorem Symmetry.carries_openingBoard (s : Symmetry) {cell : Nat} (h : cell < 9) :
    s.Carries (openingBoard cell) (openingBoard (s.landing cell)) := by
  refine Symmetry.Carries.set ⟨rfl, rfl, fun c hc => ?_⟩ h Cell.cross
  rw [Board.empty, List.getElem?_replicate_of_lt (s.landing_lt hc),
    List.getElem?_replicate_of_lt hc]

/-- The canonical cell of an opening is one of its images. -/
theorem exists_landing_canonical {cell : Nat} (h : cell < 9) :
    ∃ s : Symmetry, s.landing cell = canonical cell := by
  have hall : ∀ cell < 9, ∃ s ∈ Symmetry.all, s.landing cell = canonical cell := by
    decide
  obtain ⟨s, -, hs⟩ := hall cell h
  exact ⟨s, hs⟩

theorem canonicalAt_natCast {cell : Nat} (h : cell < 9) :
    canonicalAt (cell : Int) = .ok (canonical cell) := by
  rw [canonicalAt, position_natCast h]
  rfl

/-- Runs of two openings that are images of one another find the same score, and with both cutoffs
off they make the same number of calls. -/
theorem runOpening_landing (s : Symmetry) {cell : Nat} (h : cell < 9) (n : Int) :
    (∀ cfg, (runOpening cfg cell n).map Run.score
        = (runOpening cfg (s.landing cell : Nat) n).map Run.score)
      ∧ (runOpening .plain cell n).map Run.nodes
        = (runOpening .plain (s.landing cell : Nat) n).map Run.nodes := by
  have hland := s.landing_lt h
  obtain ⟨hvalue, hsize⟩ := (s.carries_openingBoard h).gameTree_eq h 0
  rcases Int.lt_or_le n 0 with hn | hn
  · refine ⟨fun cfg => ?_, ?_⟩
    · rw [runOpening_of_neg h cfg hn, runOpening_of_neg hland cfg hn]
    · rw [runOpening_of_neg h .plain hn, runOpening_of_neg hland .plain hn]
  · obtain ⟨n, rfl⟩ := Int.eq_ofNat_of_zero_le hn
    refine ⟨fun cfg => ?_, ?_⟩
    · rw [runOpening_eq h (solve_openingBoard h cfg), runOpening_eq hland
        (solve_openingBoard hland cfg), hvalue]
      rfl
    · rw [runOpening_eq h (solve_openingBoard h .plain), runOpening_eq hland
        (solve_openingBoard hland .plain), Tree.search_plain, Tree.search_plain, hsize]
      rfl

/-- A run of an opening on the board ends with a result. -/
theorem exists_runOpening {cell : Nat} (h : cell < 9) (cfg : Pruning) {n : Int} (hn : 0 ≤ n) :
    ∃ r, runOpening cfg cell n = .ok r := by
  obtain ⟨n, rfl⟩ := Int.eq_ofNat_of_zero_le hn
  exact ⟨_, runOpening_eq h (solve_openingBoard h cfg) n⟩

/-! ## Conclusion -/

/-- **The search is invariant under the symmetries of the board.**  With both cutoffs off, the
image of a position under a symmetry has the same score and takes as many calls, whatever stands on
the board and at whatever depth; with as many empty cells as the depth leaves moves, the score is
the same in every configuration.  So a run of an opening and a run of its canonical cell find the
same score, and with both cutoffs off they make as many calls. -/
theorem minimax_transform :
    (∀ (s : Symmetry) (b : Board), b.length = 9 → ∀ move : Int, 0 ≤ move → move ≤ 8 →
      ∃ t a, s.transform b = .ok t ∧ s.image move = .ok a ∧ ∀ depth : Int,
        (∀ α β, ∃ v n, minimax .plain b α β depth move = ⟨.ok v, n, b⟩
          ∧ minimax .plain t α β depth a = ⟨.ok v, n, t⟩)
        ∧ (depth ≤ 8 → 8 - depth ≤ room b → ∀ cfg, ∃ v,
          (minimax cfg b Score.bottom Score.top depth move).score = .ok v
            ∧ (minimax cfg t Score.bottom Score.top depth a).score = .ok v))
    ∧ ∀ cell : Int, 0 ≤ cell → cell ≤ 8 → ∃ k : Nat, canonicalAt cell = .ok k ∧ ∀ n : Int,
        (∀ cfg, (0 ≤ n → ∃ r, runOpening cfg cell n = .ok r)
          ∧ (runOpening cfg cell n).map Run.score = (runOpening cfg k n).map Run.score)
        ∧ (runOpening .plain cell n).map Run.nodes = (runOpening .plain k n).map Run.nodes := by
  refine ⟨fun s b hb move hm hm' => ?_, fun cell hc hc' => ?_⟩
  · obtain ⟨cell, rfl⟩ := Int.eq_ofNat_of_zero_le hm
    have hcell : cell < 9 := by omega
    obtain ⟨t, ht, h⟩ := s.exists_carries hb
    exact ⟨t, s.landing cell, ht, s.image_natCast hcell, fun depth =>
      ⟨h.minimax_plain hcell depth, fun hd hr => h.minimax_complete hcell hd hr⟩⟩
  · obtain ⟨cell, rfl⟩ := Int.eq_ofNat_of_zero_le hc
    have hcell : cell < 9 := by omega
    obtain ⟨s, hs⟩ := exists_landing_canonical hcell
    refine ⟨canonical cell, canonicalAt_natCast hcell, fun n => ?_⟩
    rw [← hs]
    obtain ⟨hscore, hnodes⟩ := runOpening_landing s hcell n
    exact ⟨fun cfg => ⟨exists_runOpening hcell cfg, hscore cfg⟩, hnodes⟩

/-- A quarter turn of a board with a foreign piece on it, and two runs of the edge opening `3`. -/
theorem minimax_transform_quarterTurn :
    (([1, 2, 7, 0, 1, 0, 2, 0, 0] : Board).length = 9 ∧ (0 : Int) ≤ 6 ∧ (6 : Int) ≤ 8
        ∧ (4 : Int) ≤ 8 ∧ 8 - (4 : Int) ≤ room [1, 2, 7, 0, 1, 0, 2, 0, 0]
        ∧ ∃ t a, Symmetry.quarterTurn.transform [1, 2, 7, 0, 1, 0, 2, 0, 0] = .ok t
          ∧ Symmetry.quarterTurn.image 6 = .ok a
          ∧ (∃ v n, minimax .plain [1, 2, 7, 0, 1, 0, 2, 0, 0] 2 9 4 6
              = ⟨.ok v, n, [1, 2, 7, 0, 1, 0, 2, 0, 0]⟩
            ∧ minimax .plain t 2 9 4 a = ⟨.ok v, n, t⟩)
          ∧ ∀ cfg, ∃ v,
            (minimax cfg [1, 2, 7, 0, 1, 0, 2, 0, 0] Score.bottom Score.top 4 6).score = .ok v
              ∧ (minimax cfg t Score.bottom Score.top 4 a).score = .ok v)
      ∧ (0 : Int) ≤ 3 ∧ (3 : Int) ≤ 8 ∧ (0 : Int) ≤ 2
        ∧ ∃ k : Nat, canonicalAt 3 = .ok k ∧ (∃ r, runOpening .plain 3 2 = .ok r)
          ∧ (runOpening .plain 3 2).map Run.score = (runOpening .plain k 2).map Run.score
          ∧ (runOpening .plain 3 2).map Run.nodes = (runOpening .plain k 2).map Run.nodes := by
  obtain ⟨t, a, ht, ha, h⟩ := minimax_transform.1 .quarterTurn [1, 2, 7, 0, 1, 0, 2, 0, 0] rfl 6
    (by decide) (by decide)
  obtain ⟨k, hk, hruns⟩ := minimax_transform.2 3 (by decide) (by decide)
  obtain ⟨hscore, hnodes⟩ := hruns 2
  exact ⟨⟨rfl, by decide, by decide, by decide, by decide, t, a, ht, ha, (h 4).1 2 9,
    (h 4).2 (by decide) (by decide)⟩, by decide, by decide, by decide, k, hk,
    (hscore .plain).1 (by decide), (hscore .plain).2, hnodes⟩

end Noughts
