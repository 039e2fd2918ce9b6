import Noughts.Proofs.CallTree

/-!
# How far a search can go

The depth that a search is called with does not bound it.  From a depth beyond that of a full board
the search never meets the depth at which it would call a tie, and below the fourth move it looks
for no line.  What does bound it is the board: every call below another has one empty cell less to
play on (`room_after`), and with no empty cell left a sweep makes no call at all.

* `nest_eq_minimax`: so no more calls are ever nested than there are empty cells, and one.
  `length_played_le` says the same of the list of calls.
* `sweep_nodes_le`, `minimax_nodes_le_callBound`: a sweep makes a call for each empty cell at most,
  however it ends, and so a search with `e` empty cells makes `callBound e` calls at most.
* `size_gameTree_early`: as long as no line is looked for, every fork has all its children, and a
  search without cutoffs makes as many calls as the bound allows.
* `minimax_bounded`: all of this, on a board of any length.
-/

set_option autoImplicit false

namespace Noughts

variable {cfg : Pruning} {b : Board} {depth move : Int}

/-! ## The bound -/

theorem callBound_eq (e : Nat) : callBound e = 1 + e * callBound (e - 1) := by
  cases e with
  | zero => rfl
  | succ e => rfl

theorem one_le_callBound (e : Nat) : 1 ≤ callBound e := by
  rw [callBound_eq]
  exact Nat.le_add_right 1 _

/-! ## The empty cells of a sweep -/

/-- The empty cells among the first few, counted by their places and counted as they stand. -/
theorem length_filter_range (b : Board) (n : Nat) :
    ((List.range n).filter fun cell => decide (b[cell]? = some Cell.empty)).length
      = (b.take n).count Cell.empty := by
  induction n with
  | zero => rfl
  | succ n ih =>
    rw [List.range_succ, List.filter_append, List.length_append, ih, List.take_add_one,
      List.count_append]
    cases hb : b[n]? with
    | none => simp [hb]
    | some c =>
      by_cases hc : c = Cell.empty
      · simp [hb, hc]
      · simp [hb, hc]

/-- There are as many cells to try as there is room, on a board of any length. -/
theorem length_openCells (b : Board) : (openCells b).length = room b :=
  length_filter_range b 9

/-! ## How deep the calls are nested -/

/-- **Every move takes up one of the empty cells**, so a call is at the end of no more moves than
there were empty cells. -/
theorem length_played_le {α β : Score} :
    ∀ c ∈ calls cfg b α β depth move, c.played.length ≤ room b := by
  -- What a call has played and what it has left to play make up the room of the first call.
  have hsum : ∀ c ∈ calls cfg b α β depth move, c.played.length + room c.board = room b := by
    refine (unfolds_calls cfg b α β depth move).induction (Nat.zero_add _) ?_
    intro parent _ cell c hparent hf
    have hroom := room_after parent.depth (mem_openCells.mpr ⟨hf.cell_lt, hf.free⟩)
    rw [hf.played, hf.board, List.length_append, List.length_singleton]
    omega
  intro c hc
  have := hsum c hc
  omega

/-! ## How many calls there are -/

/-- **A sweep makes one call for each empty cell at most**, however it ends. -/
theorem sweep_nodes_le {child : Scorer} (hc : Restores child) {cells : List Nat} {most : Nat}
    (h : ∀ cell ∈ cells, b[cell]? = some Cell.empty → ∀ α β,
      (child (after b depth cell) α β (depth + 1) cell).nodes ≤ most) (α β best : Score) :
    (sweep cfg child depth cells b α β best).nodes
      ≤ (cells.filter fun cell => decide (b[cell]? = some Cell.empty)).length * most := by
  induction cells generalizing α β best with
  | nil => exact Nat.zero_le _
  | cons cell rest ih =>
    have ih := ih fun c hcell => h c (List.mem_cons_of_mem _ hcell)
    rw [sweep]
    cases hb : b[cell]? with
    | none => exact Nat.zero_le _
    | some c =>
      by_cases hce : c = Cell.empty
      · subst hce
        have hbelow := h cell List.mem_cons_self hb α β
        rw [after] at hbelow
        rw [List.filter_cons_of_pos (by simpa using hb), List.length_cons, Nat.succ_mul]
        simp only [if_true]
        cases hs : (child (b.set cell (Side.atDepth depth).piece) α β (depth + 1) cell).score with
        | error f => exact Nat.le_add_left_of_le hbelow
        | ok s =>
          rw [hc.taken_back hb hs]
          cases hw : weigh cfg (Side.atDepth depth) α β best s with
          | stop s =>
            simp only [hw]
            exact Nat.le_add_left_of_le hbelow
          | resume α' β' best' =>
            simp only [hw, Outcome.charge]
            rw [Nat.add_comm]
            exact Nat.add_le_add (ih α' β' best') hbelow
      · rw [List.filter_cons_of_neg (by simpa [hb] using hce)]
        simp only [hce, if_false]
        exact ih α β best

/-- **A search makes no more calls than the bound**, on a board of any length, at any depth, and
whether it finds a score or meets a fault. -/
theorem minimax_nodes_le_callBound (cfg : Pruning) (b : Board) (α β : Score) (depth move : Int) :
    (minimax cfg b α β depth move).nodes ≤ callBound (room b) := by
  induction b, depth, move using call_induction generalizing α β with
  | step b depth move ih =>
    rw [minimax_eq_node, node]
    cases hv : verdict b depth move with
    | error f => exact one_le_callBound _
    | ok v =>
      cases v with
      | some s => exact one_le_callBound _
      | none =>
        have hbelow : ∀ cell ∈ cellOrder, b[cell]? = some Cell.empty → ∀ α β,
            (minimax cfg (after b depth cell) α β (depth + 1) cell).nodes
              ≤ callBound (room b - 1) := by
          intro cell hcell hb α β
          have hopen := mem_openCells.mpr ⟨mem_cellOrder.mp hcell, hb⟩
          have hroom := room_after depth hopen
          rw [← hroom]
          exact ih cell hopen α β
        have hsweep :
            (sweep cfg (minimax cfg) depth cellOrder b α β (Side.atDepth depth).seed).nodes
              ≤ (openCells b).length * callBound (room b - 1) :=
          sweep_nodes_le restores_minimax hbelow α β _
        rw [length_openCells] at hsweep
        rw [callBound_eq]
        exact Nat.add_le_add_left hsweep 1

theorem one_le_nodes (cfg : Pruning) (b : Board) (α β : Score) (depth move : Int) :
    1 ≤ (minimax cfg b α β depth move).nodes := by
  rw [← length_calls]
  exact List.length_pos_of_mem (unfolds_calls cfg b α β depth move).root_mem

/-! ## As many calls as the bound allows -/

theorem Tree.sizeAll_eq_mul {ts : List Tree} {n : Nat} (h : ∀ t ∈ ts, t.size = n) :
    sizeAll ts = ts.length * n := by
  induction ts with
  | nil => rw [sizeAll, List.length_nil, Nat.zero_mul]
  | cons t rest ih =>
    rw [sizeAll, h t List.mem_cons_self, ih fun u hu => h u (List.mem_cons_of_mem _ hu),
      List.length_cons, Nat.succ_mul, Nat.add_comm]

/-- **A tree in which no line is ever looked for has every branch there can be.** -/
theorem size_gameTree_early (h : depth + room b < firstLineDepth) :
    (gameTree b depth move).size = callBound (room b) := by
  induction b, depth, move using call_induction with
  | step b depth move ih =>
    have hd : depth < firstLineDepth := by omega
    have hchildren : ∀ t ∈ children b depth, t.size = callBound (room b - 1) := by
      intro t ht
      obtain ⟨cell, hcell, rfl⟩ := List.mem_map.mp ht
      have hroom := room_after depth hcell
      rw [ih cell hcell (by omega), ← hroom]
      rfl
    rw [gameTree_of_open (verdict_of_early hd), Tree.size, Tree.sizeAll_eq_mul hchildren,
      callBound_eq (room b), children, List.length_map, length_openCells]

/-! ## Conclusion -/

/-- **A search ends within a fixed bound**, on a board of any length and from any depth.  With `e`
empty cells among the nine, calls nested `e + 1` deep are enough, whatever would stand below them;
every call is at the end of `e` moves at most.  There is one call at least, and there are
`callBound e` at most, whether the search finds a score or meets a fault.  A search without cutoffs
that never gets to the fourth move makes exactly that many. -/
theorem minimax_bounded (cfg : Pruning) (b : Board) (α β : Score) (depth move : Int) :
    (∀ (ground : Scorer) (n : Nat), room b + 1 ≤ n →
        nest cfg ground n b α β depth move = minimax cfg b α β depth move)
      ∧ (calls cfg b α β depth move).length = (minimax cfg b α β depth move).nodes
      ∧ (∀ c ∈ calls cfg b α β depth move, c.played.length + 1 ≤ room b + 1)
      ∧ 1 ≤ (minimax cfg b α β depth move).nodes
      ∧ (minimax cfg b α β depth move).nodes ≤ callBound (room b)
      ∧ (9 ≤ b.length → depth + room b < 4 →
        (minimax .plain b α β depth move).nodes = callBound (room b)) := by
  refine ⟨?_, length_calls cfg b α β depth move, ?_, one_le_nodes cfg b α β depth move,
    minimax_nodes_le_callBound cfg b α β depth move, ?_⟩
  · intro ground n hn
    exact nest_eq_minimax ground hn α β depth move
  · intro c hc
    exact Nat.succ_le_succ (length_played_le c hc)
  · intro hb hd
    have hearly : depth < firstLineDepth := by
      simp only [firstLineDepth]
      omega
    rw [minimax_plain hb (verdict_of_early hearly), size_gameTree_early hd]

/-- Three empty cells and no line to be looked for, at a depth below zero and after a move that is
no cell: the search without cutoffs makes all sixteen calls, and four nested calls are enough even
where a fault stands below them. -/
theorem minimax_bounded_early :
    room [1, 2, 1, 2, 0, 0, 0, 1, 2] + 1 ≤ 4
      ∧ nest .plain (fun b _ _ _ _ => ⟨.error .oversized, 100, b⟩) 4
          [1, 2, 1, 2, 0, 0, 0, 1, 2] 2 9 (-3) 50
        = minimax .plain [1, 2, 1, 2, 0, 0, 0, 1, 2] 2 9 (-3) 50
      ∧ (⟨[4, 6, 5], [1, 2, 1, 2, 1, 1, 2, 1, 2], 0, 5⟩ : Call)
        ∈ calls .plain [1, 2, 1, 2, 0, 0, 0, 1, 2] 2 9 (-3) 50
      ∧ [4, 6, 5].length + 1 ≤ room [1, 2, 1, 2, 0, 0, 0, 1, 2] + 1
      ∧ 9 ≤ ([1, 2, 1, 2, 0, 0, 0, 1, 2] : Board).length
      ∧ (-3 : Int) + room [1, 2, 1, 2, 0, 0, 0, 1, 2] < 4
      ∧ (minimax .plain [1, 2, 1, 2, 0, 0, 0, 1, 2] 2 9 (-3) 50).nodes
        = callBound (room [1, 2, 1, 2, 0, 0, 0, 1, 2])
      ∧ callBound (room [1, 2, 1, 2, 0, 0, 0, 1, 2]) = 16 := by
  have hmem : (⟨[4, 6, 5], [1, 2, 1, 2, 1, 1, 2, 1, 2], 0, 5⟩ : Call)
      ∈ calls .plain [1, 2, 1, 2, 0, 0, 0, 1, 2] 2 9 (-3) 50 := by decide
  obtain ⟨hnest, -, hplayed, -, -, hall⟩ :=
    minimax_bounded .plain [1, 2, 1, 2, 0, 0, 0, 1, 2] 2 9 (-3) 50
  exact ⟨by decide, hnest _ 4 (by decide), hmem, hplayed _ hmem, by decide, by decide,
    hall (by decide) (by decide), rfl⟩

end Noughts
