import Noughts.Proofs.LineTest

/-!
# What the search looks at

A search reads its board in two ways: it asks whether a cell is empty, and its line test asks
whether three cells hold the same piece and whether that piece is a cross.  It never asks *which*
foreign piece stands on a cell, and never looks past the ninth.  So two boards are all the same to
it when their first nine cells hold equal pieces at the same places, and the empty cell, the cross
and the nought each at the same places; that is `SamePattern`.

* `SamePattern.after`: a move keeps the pattern, since it writes the same piece on both boards.
* `SamePattern.verdict_eq`, `SamePattern.gameTree_eq`: the line test comes to the same verdict, and
  the two boards have one game tree.
* `SamePattern.minimax_eq`: so a search finds the same score with the same calls, and leaves each
  board as it was.
* `minimax_reads_pattern`: what this says of cells past the ninth and of other foreign pieces; and
  that before the fourth move the search does not read its last move either.
-/

set_option autoImplicit false

namespace Noughts

/-- The first nine cells of both boards hold equal pieces at the same places, and the pieces that
the game knows at the same places. -/
structure SamePattern (b t : Board) : Prop where
  nine_le_left : 9 ≤ b.length
  nine_le_right : 9 ≤ t.length
  /-- Two cells that hold the same piece on one board do so on the other. -/
  same : ∀ c < 9, ∀ d < 9, t[c]? = t[d]? ↔ b[c]? = b[d]?
  empty : ∀ c < 9, t[c]? = some Cell.empty ↔ b[c]? = some Cell.empty
  cross : ∀ c < 9, t[c]? = some Cell.cross ↔ b[c]? = some Cell.cross
  nought : ∀ c < 9, t[c]? = some Cell.nought ↔ b[c]? = some Cell.nought

namespace SamePattern

variable {b t : Board} {cell : Nat} {depth move : Int}

/-! ## Boards of one pattern -/

/-- The piece that a side places is at the same places. -/
theorem piece (h : SamePattern b t) (side : Side) {c : Nat} (hc : c < 9) :
    t[c]? = some side.piece ↔ b[c]? = some side.piece := by
  cases side with
  | maximizer => exact h.cross c hc
  | minimizer => exact h.nought c hc

/-- Cells past the ninth do not belong to the pattern. -/
theorem of_append {b : Board} (hb : 9 ≤ b.length) (ext : Board) : SamePattern b (b ++ ext) := by
  have hget : ∀ c < 9, (b ++ ext)[c]? = b[c]? := by
    intro c hc
    exact List.getElem?_append_left (Nat.lt_of_lt_of_le hc hb)
  refine ⟨hb, by rw [List.length_append]; omega, ?_, ?_, ?_, ?_⟩
  · intro c hc d hd
    rw [hget c hc, hget d hd]
  · intro c hc
    rw [hget c hc]
  · intro c hc
    rw [hget c hc]
  · intro c hc
    rw [hget c hc]

/-- Other foreign pieces, different ones for different ones, make the same pattern. -/
theorem of_map {b : Board} (hb : 9 ≤ b.length) {f : Cell → Cell} (hf : Function.Injective f)
    (hempty : f Cell.empty = Cell.empty) (hcross : f Cell.cross = Cell.cross)
    (hnought : f Cell.nought = Cell.nought) : SamePattern b (b.map f) := by
  have hfixed : ∀ p, f p = p → ∀ c : Nat, (b.map f)[c]? = some p ↔ b[c]? = some p := by
    intro p hp c
    have hread : (b.map f)[c]? = some (f p) ↔ b[c]? = some p := by
      rw [List.getElem?_map, ← Option.map_some]
      exact (Option.map_injective hf).eq_iff
    rwa [hp] at hread
  refine ⟨hb, by rwa [List.length_map], ?_, fun c _ => hfixed _ hempty c,
    fun c _ => hfixed _ hcross c, fun c _ => hfixed _ hnought c⟩
  intro c _ d _
  rw [List.getElem?_map, List.getElem?_map]
  exact (Option.map_injective hf).eq_iff

/-- **A move keeps the pattern.** -/
theorem after (h : SamePattern b t) (hcell : cell < 9) (depth : Int) :
    SamePattern (after b depth cell) (after t depth cell) := by
  have hb := getElem?_after (Nat.lt_of_lt_of_le hcell h.nine_le_left) depth
  have ht := getElem?_after (Nat.lt_of_lt_of_le hcell h.nine_le_right) depth
  -- The cell of the move holds the same piece on both boards, and every other cell is as it was.
  have hnew : ∀ (p : Cell) (c : Nat), (t[c]? = some p ↔ b[c]? = some p) →
      ((Noughts.after t depth cell)[c]? = some p ↔ (Noughts.after b depth cell)[c]? = some p) := by
    intro p c hp
    rw [hb, ht]
    by_cases he : cell = c
    · rw [if_pos he, if_pos he]
    · rwa [if_neg he, if_neg he]
  refine ⟨by rw [length_after]; exact h.nine_le_left, by rw [length_after]; exact h.nine_le_right,
    ?_, fun c hc => hnew _ c (h.empty c hc), fun c hc => hnew _ c (h.cross c hc),
    fun c hc => hnew _ c (h.nought c hc)⟩
  intro c hc d hd
  rw [hb, hb, ht, ht]
  by_cases hce : cell = c
  · by_cases hde : cell = d
    · rw [if_pos hce, if_pos hde, if_pos hce, if_pos hde]
    · rw [if_pos hce, if_neg hde, if_pos hce, if_neg hde, eq_comm, h.piece _ hd, eq_comm]
  · by_cases hde : cell = d
    · rw [if_neg hce, if_pos hde, if_neg hce, if_pos hde, h.piece _ hc]
    · rw [if_neg hce, if_neg hde, if_neg hce, if_neg hde, h.same c hc d hd]

/-! ## What the search makes of them -/

theorem openCells_eq (h : SamePattern b t) : openCells t = openCells b := by
  refine List.filter_congr ?_
  intro c hc
  rw [Bool.eq_iff_iff, decide_eq_true_eq, decide_eq_true_eq, h.empty c (mem_cellOrder.mp hc)]

/-- The line test of one of the nine cells finds a line on both boards or on neither.  The owners
may be two different pieces, but no verdict tells them apart. -/
theorem verdict_natCast_eq (h : SamePattern b t) (depth : Int) (hcell : cell < 9) :
    verdict t depth (cell : Nat) = verdict b depth (cell : Nat) := by
  obtain ⟨p, hp⟩ := exists_getElem? (Nat.lt_of_lt_of_le hcell h.nine_le_left)
  obtain ⟨q, hq⟩ := exists_getElem? (Nat.lt_of_lt_of_le hcell h.nine_le_right)
  have hempty : q = Cell.empty ↔ p = Cell.empty := by
    simpa only [hp, hq, Option.some_inj] using h.empty cell hcell
  have hcross : q = Cell.cross ↔ p = Cell.cross := by
    simpa only [hp, hq, Option.some_inj] using h.cross cell hcell
  have hlines : (∃ ij ∈ pairsThrough cell, t[ij.1]? = some q ∧ t[ij.2]? = some q)
      ↔ ∃ ij ∈ pairsThrough cell, b[ij.1]? = some p ∧ b[ij.2]? = some p := by
    rw [← hp, ← hq]
    refine exists_congr fun ij => and_congr_right fun hij => ?_
    obtain ⟨hi, hj⟩ := pairsThrough_lt hcell ij hij
    rw [h.same _ hi _ hcell, h.same _ hj _ hcell]
  rw [verdict, verdict, winnerThrough_natCast h.nine_le_left hcell hp,
    winnerThrough_natCast h.nine_le_right hcell hq]
  by_cases hline : ∃ ij ∈ pairsThrough cell, b[ij.1]? = some p ∧ b[ij.2]? = some p
  · rw [if_pos hline, if_pos (hlines.mpr hline)]
    simp only [hempty, hcross]
  · rw [if_neg hline, if_neg (mt hlines.mp hline)]

/-- On boards of nine cells each, **the verdict is the same for every integer given as the move**,
whether it names a cell or not. -/
theorem verdict_eq (h : SamePattern b t) (hb : b.length = 9) (ht : t.length = 9)
    (depth move : Int) : verdict t depth move = verdict b depth move := by
  cases hpos : position .cells 9 move with
  | error f =>
    have hfault : ∀ b : Board, b.length = 9 → winnerThrough b move = .error f := by
      intro b hb
      rw [winnerThrough, entry, hb, hpos]
    rw [verdict, verdict, hfault b hb, hfault t ht]
  | ok k =>
    have hk := (position_eq_ok_iff.mp hpos).1
    have hplace : ∀ b : Board, b.length = 9 → verdict b depth move = verdict b depth (k : Int) := by
      intro b hb
      rw [verdict, verdict, winnerThrough_of_position hb hpos]
    rw [hplace b hb, hplace t ht]
    exact h.verdict_natCast_eq depth hk

/-- **Boards of one pattern have one game tree** below a call that is decided alike on both. -/
theorem gameTree_eq (h : SamePattern b t) {v : Option Score} (hb : verdict b depth move = .ok v)
    (ht : verdict t depth move = .ok v) : gameTree t depth move = gameTree b depth move := by
  induction b, depth, move using call_induction generalizing t v with
  | step b depth move ih =>
    cases v with
    | some s => rw [gameTree_of_over hb, gameTree_of_over ht]
    | none =>
      have hchildren : children t depth = children b depth := by
        rw [children, children, h.openCells_eq]
        refine List.map_congr_left ?_
        intro cell hcell
        have hlt := (mem_openCells.mp hcell).1
        have hnext := h.after hlt depth
        obtain ⟨v, hv⟩ := verdict_after h.nine_le_left depth hcell
        exact ih cell hcell hnext hv ((hnext.verdict_natCast_eq (depth + 1) hlt).trans hv)
      rw [gameTree_of_open hb, gameTree_of_open ht, hchildren]

/-- **The search does not tell boards of one pattern apart**: it ends in the same way after the same
number of calls, and hands each board back as it was. -/
theorem minimax_eq (h : SamePattern b t) (hv : verdict t depth move = verdict b depth move)
    (cfg : Pruning) (α β : Score) :
    minimax cfg t α β depth move = { minimax cfg b α β depth move with board := t } := by
  cases hb : verdict b depth move with
  | error f =>
    rw [hb] at hv
    rw [minimax_of_fault hb, minimax_of_fault hv]
  | ok v =>
    rw [hb] at hv
    rw [minimax_eq_search h.nine_le_left hb, minimax_eq_search h.nine_le_right hv,
      h.gameTree_eq hb hv]

end SamePattern

/-! ## Before the fourth move -/

/-- **Early on the search does not look at its last move**: whatever integer is given for it, the
search finds the same score with the same calls. -/
theorem exists_minimax_early {b : Board} (hb : 9 ≤ b.length) {depth : Int}
    (hd : depth < firstLineDepth) (cfg : Pruning) (α β : Score) :
    ∃ v n, ∀ move, minimax cfg b α β depth move = ⟨.ok v, n, b⟩ := by
  let found := (Tree.fork (Side.atDepth depth) (children b depth)).search cfg α β
  refine ⟨found.score, found.nodes, ?_⟩
  intro move
  have hopen : verdict b depth move = .ok none := verdict_of_early hd
  rw [minimax_eq_search hb hopen, gameTree_of_open hopen]

/-! ## Conclusion -/

/-- **The search depends on nothing but the pattern of the first nine cells.**  Cells past the ninth
change neither the score nor the calls of a search after a move on the board, and stay as they are.
Other foreign pieces, different ones for different ones, change neither the score nor the calls nor
whether there is a fault, whatever integer is given for the move.  And before the fourth move it
does not matter which integer that is. -/
theorem minimax_reads_pattern {b : Board} (hb : b.length = 9) (cfg : Pruning) (α β : Score)
    (depth : Int) :
    (∀ (ext : Board) (move : Int), 0 ≤ move → move ≤ 8 → ∃ v n,
        minimax cfg b α β depth move = ⟨.ok v, n, b⟩
          ∧ minimax cfg (b ++ ext) α β depth move = ⟨.ok v, n, b ++ ext⟩)
      ∧ (∀ f : Cell → Cell, Function.Injective f → f Cell.empty = Cell.empty →
        f Cell.cross = Cell.cross → f Cell.nought = Cell.nought → ∀ move : Int,
          (minimax cfg (b.map f) α β depth move).score = (minimax cfg b α β depth move).score
            ∧ (minimax cfg (b.map f) α β depth move).nodes = (minimax cfg b α β depth move).nodes)
      ∧ (depth < 4 → ∃ v n, ∀ move : Int, minimax cfg b α β depth move = ⟨.ok v, n, b⟩) := by
  have hnine : 9 ≤ b.length := Nat.le_of_eq hb.symm
  refine ⟨?_, ?_, ?_⟩
  · intro ext move hm hm'
    obtain ⟨cell, rfl⟩ := Int.eq_ofNat_of_zero_le hm
    have hcell : cell < 9 := by omega
    have h := SamePattern.of_append hnine ext
    obtain ⟨v, hv⟩ := verdict_natCast hnine depth hcell
    have heq := h.minimax_eq (h.verdict_natCast_eq depth hcell) cfg α β
    rw [minimax_eq_search hnine hv] at heq ⊢
    exact ⟨_, _, rfl, heq⟩
  · intro f hf hempty hcross hnought move
    have h := SamePattern.of_map hnine hf hempty hcross hnought
    have hv := h.verdict_eq hb (by rw [List.length_map, hb]) depth move
    rw [h.minimax_eq hv]
    exact ⟨rfl, rfl⟩
  · intro hd
    exact exists_minimax_early hnine hd cfg α β

/-- A board with two kinds of foreign pieces, one of which owns the first row: with two cells more,
with other foreign pieces and a move counted from the back, and before the fourth move. -/
theorem minimax_reads_pattern_foreign :
    ([7, 7, 7, 1, 5, 2, 0, 2, 0] : Board).length = 9
      ∧ ((0 : Int) ≤ 3 ∧ (3 : Int) ≤ 8 ∧ ∃ v n,
        minimax {} [7, 7, 7, 1, 5, 2, 0, 2, 0] 2 9 5 3 = ⟨.ok v, n, [7, 7, 7, 1, 5, 2, 0, 2, 0]⟩
          ∧ minimax {} ([7, 7, 7, 1, 5, 2, 0, 2, 0] ++ [0, 4]) 2 9 5 3
            = ⟨.ok v, n, [7, 7, 7, 1, 5, 2, 0, 2, 0] ++ [0, 4]⟩)
      ∧ (Function.Injective (fun p : Int => if 3 ≤ p then p + 1 else p)
        ∧ (minimax {} (List.map (fun p : Int => if 3 ≤ p then p + 1 else p)
            [7, 7, 7, 1, 5, 2, 0, 2, 0]) 2 9 5 (-8)).score
          = (minimax {} [7, 7, 7, 1, 5, 2, 0, 2, 0] 2 9 5 (-8)).score
        ∧ (minimax {} (List.map (fun p : Int => if 3 ≤ p then p + 1 else p)
            [7, 7, 7, 1, 5, 2, 0, 2, 0]) 2 9 5 (-8)).nodes
          = (minimax {} [7, 7, 7, 1, 5, 2, 0, 2, 0] 2 9 5 (-8)).nodes)
      ∧ ((3 : Int) < 4 ∧ ∃ v n, ∀ move : Int,
        minimax {} [7, 7, 7, 1, 5, 2, 0, 2, 0] 2 9 3 move
          = ⟨.ok v, n, [7, 7, 7, 1, 5, 2, 0, 2, 0]⟩) := by
  have hlength : ([7, 7, 7, 1, 5, 2, 0, 2, 0] : Board).length = 9 := rfl
  have hf : Function.Injective (fun p : Int => if 3 ≤ p then p + 1 else p) := by
    intro p q h
    simp only at h
    split at h <;> split at h <;> omega
  obtain ⟨hext, hmap, -⟩ := minimax_reads_pattern hlength {} 2 9 5
  obtain ⟨-, -, hearly⟩ := minimax_reads_pattern hlength {} 2 9 3
  exact ⟨hlength, ⟨by decide, by decide, hext [0, 4] 3 (by decide) (by decide)⟩,
    ⟨hf, hmap _ hf rfl rfl rfl (-8)⟩, by decide, hearly (by decide)⟩

end Noughts
