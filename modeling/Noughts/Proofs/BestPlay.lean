import Noughts.Proofs.LineTest
import Mathlib.Data.List.Fold

/-!
# The search finds the value of the game

`Noughts.Game` says what a position is worth by the rules alone.  The search knows the rules only
through three short cuts: it takes the turn from the depth, it looks for lines late and only
through the last move, and it takes a depth for a full board.  All three are right at once in a
position of a game that is being played (`InPlay`), and a move leads to another such position.

* `InPlay.verdict_eq`: in such a position a call is decided exactly when the game is over, and with
  the same score.
* `InPlay.next`: the move that the search makes there is a move of the game.
* `InPlay.value_gameTree`, `InPlay.size_gameTree`: so the tree of the search is the game tree.
-/

set_option autoImplicit false

namespace Noughts

open Board (Line winningLines)

/-! ## Choosing the best -/

/-- The best of some scores comes out of a sweep that starts from the seed, as soon as one of them
is no worse than the seed. -/
theorem Side.best_eq_foldr (side : Side) {s : Score} (hs : side.better s side.seed = s)
    (rest : List Score) :
    side.best (s :: rest) = (s :: rest).foldr side.better side.seed := by
  have hfold : side.best (s :: rest) = rest.foldl side.better s := by
    cases side <;> rw [best]
    · rw [List.max?_cons']
      rfl
    · rw [List.min?_cons']
      rfl
  calc side.best (s :: rest) = rest.foldr side.better s := by rw [hfold, List.foldl_eq_foldr]
    _ = rest.foldr side.better (side.better s side.seed) := by rw [hs]
    _ = (s :: rest).foldr side.better side.seed := side.foldr_better s side.seed rest

theorem IsOutcome.better_seed {s : Score} (h : IsOutcome s) (side : Side) :
    side.better s side.seed = s := by
  rw [side.better_eq_ite, if_pos (h.prefers_seed side)]

theorem foldr_add_eq (f : Nat → Nat) (n : Nat) (cells : List Nat) :
    cells.foldr (fun cell m => f cell + m) n = n + (cells.map f).foldr (· + ·) 0 := by
  induction cells with
  | nil => rfl
  | cons cell rest ih =>
    rw [List.foldr_cons, ih, List.map_cons, List.foldr_cons]
    omega

/-! ## Games that are over -/

theorem Board.outcome?_of_empty {b : Board} (h : b.winner = .ok Cell.empty) :
    b.outcome? = if b.legalMoves = [] then some Score.tie else none := by
  rw [outcome?, h]
  simp only [if_true, List.isEmpty_iff]

theorem Board.outcome?_of_owner {b : Board} {p : Cell} (h : b.winner = .ok p)
    (hp : p ≠ Cell.empty) :
    b.outcome? = some (if p = Cell.cross then Score.win else Score.lose) := by
  rw [outcome?, h]
  exact if_neg hp

/-! ## Positions of a game -/

/-- A position of a game, `depth` moves after the opening cross, with `move` the last cell that was
played. -/
structure InPlay (b : Board) (depth move : Nat) : Prop where
  length : b.length = 9
  /-- No foreign pieces. -/
  pieces : ∀ c ∈ b, c = Cell.empty ∨ c = Cell.cross ∨ c = Cell.nought
  crosses : b.count Cell.cross = depth / 2 + 1
  noughts : b.count Cell.nought = (depth + 1) / 2
  move_lt : move < 9
  /-- Nobody owned a line before the last move. -/
  fresh : Board.winner (b.set move Cell.empty) = .ok Cell.empty

/-! ## Counting pieces -/

/-- **Owning a line takes three pieces.** -/
theorem Board.Owns.three_le_count {b : Board} {p : Cell} {l : Line} (ho : b.Owns p l)
    (hl : l ∈ winningLines) : 3 ≤ b.count p := by
  -- Take the three pieces off one by one; the cells differ, so each is still there in its turn.
  have hdist : ∀ l ∈ winningLines,
      l.first ≠ l.second ∧ l.first ≠ l.third ∧ l.second ≠ l.third := by
    decide
  obtain ⟨h12, h13, h23⟩ := hdist l hl
  obtain ⟨h1, h2, h3⟩ := Board.owns_iff.mp ho
  have hq : p + 1 ≠ p := Int.ne_of_gt (Int.lt_succ p)
  have h2' : (b.set l.first (p + 1))[l.second]? = some p := by rw [List.getElem?_set_ne h12, h2]
  have h3' : ((b.set l.first (p + 1)).set l.second (p + 1))[l.third]? = some p := by
    rw [List.getElem?_set_ne h23, List.getElem?_set_ne h13, h3]
  have hc1 := count_set_of_ne h1 hq
  have hc2 := count_set_of_ne h2' hq
  have hc3 := count_set_of_ne h3' hq
  omega

/-- Without foreign pieces the three counts make up the board. -/
theorem count_pieces {b : Board}
    (h : ∀ c ∈ b, c = Cell.empty ∨ c = Cell.cross ∨ c = Cell.nought) :
    b.count Cell.empty + b.count Cell.cross + b.count Cell.nought = b.length := by
  induction b with
  | nil => rfl
  | cons c rest ih =>
    have ih := ih fun c hc => h c (List.mem_cons_of_mem _ hc)
    rw [List.length_cons, ← ih]
    rcases h c List.mem_cons_self with rfl | rfl | rfl
    · rw [List.count_cons_self, List.count_cons_of_ne (by decide),
        List.count_cons_of_ne (by decide)]
      omega
    · rw [List.count_cons_of_ne (by decide), List.count_cons_self,
        List.count_cons_of_ne (by decide)]
      omega
    · rw [List.count_cons_of_ne (by decide), List.count_cons_of_ne (by decide),
        List.count_cons_self]
      omega

namespace InPlay

variable {b : Board} {depth move cell : Nat}

theorem count_empty (h : InPlay b depth move) : b.count Cell.empty + (depth + 1) = 9 := by
  have hsum := count_pieces h.pieces
  rw [h.crosses, h.noughts, h.length] at hsum
  omega

theorem depth_le (h : InPlay b depth move) : depth ≤ 8 := by
  have := h.count_empty
  omega

theorem room_eq (h : InPlay b depth move) : room b = 8 - depth := by
  have hc := h.count_empty
  rw [room, List.take_of_length_le (Nat.le_of_eq h.length)]
  omega

theorem nine_le (h : InPlay b depth move) : 9 ≤ b.length :=
  Nat.le_of_eq h.length.symm

/-! ## The three short cuts -/

/-- **The turn can be taken from the depth.** -/
theorem mover_eq (h : InPlay b depth move) : b.mover = Side.atDepth depth := by
  rw [Board.mover, Side.atDepth, h.crosses, h.noughts]
  by_cases hodd : depth % 2 = 1
  · rw [if_pos (by omega), if_pos (by omega)]
  · rw [if_neg (by omega), if_neg (by omega)]

/-- **Looking through the last move is enough.** -/
theorem winnerThrough_eq (h : InPlay b depth move) : winnerThrough b move = b.winner :=
  winnerThrough_eq_winner h.nine_le h.move_lt h.fresh

/-- **Looking late is enough**: before the fourth move nobody has three pieces. -/
theorem winner_eq_empty (h : InPlay b depth move) (hd : depth < 4) :
    b.winner = .ok Cell.empty := by
  rcases Board.ownerAmong_winner h.nine_le with ⟨p, hp, _, l, hl, ho⟩ | ⟨he, _⟩
  · have hthree := ho.three_le_count hl
    have hmem : p ∈ b := List.mem_of_getElem? (ho l.first (by simp [Line.cells]))
    rcases h.pieces p hmem with rfl | rfl | rfl
    · exact absurd rfl hp
    · rw [h.crosses] at hthree
      omega
    · rw [h.noughts] at hthree
      omega
  · exact he

/-- **The depth says when the board is full.** -/
theorem legalMoves_eq_nil_iff (h : InPlay b depth move) : b.legalMoves = [] ↔ depth = 8 := by
  have hc := h.count_empty
  constructor
  · intro hnil
    have hzero : b.count Cell.empty = 0 := List.count_eq_zero.mpr fun hmem => by
      obtain ⟨cell, hget⟩ := List.mem_iff_getElem?.mp hmem
      have := Board.mem_legalMoves.mpr hget
      rw [hnil] at this
      cases this
    omega
  · intro hd
    refine List.eq_nil_iff_forall_not_mem.mpr fun cell hcell => ?_
    have hpos : 0 < b.count Cell.empty :=
      List.count_pos_iff.mpr (List.mem_of_getElem? (Board.mem_legalMoves.mp hcell))
    omega

/-- **A call is decided exactly when the game is over, and with the same score.** -/
theorem verdict_eq (h : InPlay b depth move) : verdict b depth move = .ok b.outcome? := by
  by_cases hd : depth < 4
  · have hearly : (depth : Int) < firstLineDepth := by
      simp only [firstLineDepth]
      omega
    have hmoves : b.legalMoves ≠ [] := by
      rw [Ne, h.legalMoves_eq_nil_iff]
      omega
    rw [verdict_of_early hearly, Board.outcome?_of_empty (h.winner_eq_empty hd), if_neg hmoves]
  · have hlate : ¬ (depth : Int) < firstLineDepth := by
      simp only [firstLineDepth]
      omega
    obtain ⟨p, hp⟩ := (Board.ownerAmong_winner h.nine_le).exists_ok
    have hthrough : winnerThrough b move = .ok p := by rw [h.winnerThrough_eq, hp]
    by_cases hempty : p = Cell.empty
    · subst hempty
      have hfull : (depth : Int) = fullDepth ↔ b.legalMoves = [] := by
        rw [h.legalMoves_eq_nil_iff]
        simp only [fullDepth]
        omega
      rw [verdict_of_empty hlate hthrough, Board.outcome?_of_empty hp]
      simp only [hfull]
    · rw [verdict_of_owner hlate hthrough hempty, Board.outcome?_of_owner hp hempty]

theorem legalMoves_eq (h : InPlay b depth move) : b.legalMoves = openCells b :=
  legalMoves_eq_openCells h.length

/-! ## A move leads to another position of the game -/

theorem play_eq (h : InPlay b depth move) : b.play cell = after b depth cell := by
  rw [Board.play, after, h.mover_eq]

theorem winner_of_open (h : InPlay b depth move) (hopen : b.outcome? = none) :
    b.winner = .ok Cell.empty := by
  obtain ⟨p, hp⟩ := (Board.ownerAmong_winner h.nine_le).exists_ok
  by_cases hempty : p = Cell.empty
  · rw [hp, hempty]
  · rw [Board.outcome?_of_owner hp hempty] at hopen
    cases hopen

/-- In a game that is not over there is a move. -/
theorem legalMoves_ne_nil (h : InPlay b depth move) (hopen : b.outcome? = none) :
    b.legalMoves ≠ [] := by
  intro hnil
  rw [Board.outcome?_of_empty (h.winner_of_open hopen), if_pos hnil] at hopen
  cases hopen

theorem pieces_after (h : InPlay b depth move) :
    ∀ c ∈ after b depth cell, c = Cell.empty ∨ c = Cell.cross ∨ c = Cell.nought := by
  intro c hc
  rcases List.mem_or_eq_of_mem_set hc with hc | rfl
  · exact h.pieces c hc
  · cases Side.atDepth depth with
    | maximizer => exact Or.inr (Or.inl rfl)
    | minimizer => exact Or.inr (Or.inr rfl)

/-- At odd depth there is a cross more after the move, at even depth there is not. -/
theorem crosses_after (h : InPlay b depth move) (hget : b[cell]? = some Cell.empty) :
    (after b depth cell).count Cell.cross = (depth + 1) / 2 + 1 := by
  rw [after, Side.atDepth]
  by_cases hodd : depth % 2 = 1
  · rw [if_pos (by omega), Side.piece, count_set_self hget (by decide), h.crosses]
    omega
  · rw [if_neg (by omega), Side.piece, count_set_other hget (by decide) (by decide), h.crosses]
    omega

theorem noughts_after (h : InPlay b depth move) (hget : b[cell]? = some Cell.empty) :
    (after b depth cell).count Cell.nought = (depth + 1 + 1) / 2 := by
  rw [after, Side.atDepth]
  by_cases hodd : depth % 2 = 1
  · rw [if_pos (by omega), Side.piece, count_set_other hget (by decide) (by decide), h.noughts]
    omega
  · rw [if_neg (by omega), Side.piece, count_set_self hget (by decide), h.noughts]
    omega

/-- **A move of the search is a move of the game.** -/
theorem next (h : InPlay b depth move) (hopen : b.outcome? = none) (hcell : cell ∈ openCells b) :
    InPlay (after b depth cell) (depth + 1) cell := by
  obtain ⟨hlt, hget⟩ := mem_openCells.mp hcell
  have hlen : (after b depth cell).length = 9 := by rw [length_after, h.length]
  have hback : (after b depth cell).set cell Cell.empty = b := set_set_empty _ hget
  refine ⟨hlen, h.pieces_after, h.crosses_after hget, h.noughts_after hget, hlt, ?_⟩
  rw [hback, h.winner_of_open hopen]

/-! ## The tree of the search is the game tree -/

theorem complete (h : InPlay b depth move) : (gameTree b depth move).Complete := by
  have hroom := h.room_eq
  have hd := h.depth_le
  exact complete_gameTree h.nine_le h.verdict_eq (by simp only [fullDepth]; omega)
    (by simp only [fullDepth]; omega)

theorem gameTree_of_over (h : InPlay b depth move) {s : Score} (hover : b.outcome? = some s) :
    gameTree b depth move = .leaf s :=
  Noughts.gameTree_of_over (by rw [h.verdict_eq, hover])

theorem gameTree_of_open (h : InPlay b depth move) (hopen : b.outcome? = none) :
    gameTree b depth move = .fork b.mover
      (b.legalMoves.map fun cell => gameTree (b.play cell) (depth + 1 : Nat) cell) := by
  rw [Noughts.gameTree_of_open (by rw [h.verdict_eq, hopen]), h.mover_eq, h.legalMoves_eq, children]
  simp only [h.play_eq]
  rfl

theorem play (h : InPlay b depth move) (hopen : b.outcome? = none) (hcell : cell ∈ b.legalMoves) :
    InPlay (b.play cell) (depth + 1) cell := by
  rw [h.legalMoves_eq] at hcell
  rw [h.play_eq]
  exact h.next hopen hcell

/-- Induction on the positions of a game, from those where it is over. -/
@[elab_as_elim]
theorem induction {P : Board → Nat → Nat → Prop}
    (ended : ∀ b depth move s, InPlay b depth move → b.outcome? = some s → P b depth move)
    (step : ∀ b depth move, InPlay b depth move → b.outcome? = none →
      (∀ cell ∈ b.legalMoves, P (b.play cell) (depth + 1) cell) → P b depth move)
    {b : Board} {depth move : Nat} (h : InPlay b depth move) : P b depth move := by
  cases ho : b.outcome? with
  | some s => exact ended b depth move s h ho
  | none => exact step b depth move h ho fun cell hcell => induction ended step (h.play ho hcell)
termination_by 9 - depth
decreasing_by
  have := h.depth_le
  omega

/-- What the trees of the moves are like, in the order in which they are tried. -/
theorem map_children {α : Type} {f : Tree → α} {g : Board → α} (depth : Nat)
    (hf : ∀ cell ∈ b.legalMoves,
      f (gameTree (b.play cell) (depth + 1 : Nat) (cell : Nat)) = g (b.play cell)) :
    (b.legalMoves.map fun cell => gameTree (b.play cell) (depth + 1 : Nat) (cell : Nat)).map f
      = b.legalMoves.map fun cell => g (b.play cell) := by
  rw [List.map_map]
  exact List.map_congr_left hf

/-- **The value of the tree is the value of the game.** -/
theorem value_gameTree (h : InPlay b depth move) : (gameTree b depth move).value = b.value := by
  refine InPlay.induction (fun b depth move s h ho => ?_) (fun b depth move h ho ih => ?_) h
  · rw [h.gameTree_of_over ho, Tree.value, Board.value_of_over ho]
  · rw [h.gameTree_of_open ho, Tree.value, Tree.bestOf_eq_foldr, Board.value_of_open ho,
      map_children depth ih]
    cases hl : b.legalMoves with
    | nil => exact absurd hl (h.legalMoves_ne_nil ho)
    | cons cell rest =>
      -- The first move already beats the seed, so it does not matter that a sweep starts there.
      have hcell : cell ∈ b.legalMoves := hl ▸ List.mem_cons_self
      have hchild := (h.play ho hcell).complete.isOutcome_value
      rw [ih cell hcell] at hchild
      exact (Side.best_eq_foldr _ (hchild.better_seed _) _).symm

/-- **The nodes of the tree are the positions of the game.** -/
theorem size_gameTree (h : InPlay b depth move) : (gameTree b depth move).size = b.positions := by
  refine InPlay.induction (fun b depth move s h ho => ?_) (fun b depth move h ho ih => ?_) h
  · rw [h.gameTree_of_over ho, Tree.size, Board.positions_of_over ho]
  · rw [h.gameTree_of_open ho, Tree.size, Tree.sizeAll_eq_foldr, map_children depth ih,
      Board.positions_of_open ho, foldr_add_eq fun cell => (b.play cell).positions]

end InPlay

/-! ## The search -/

/-- **The search finds the value of the game**, in every configuration and in every window around
all outcomes; and with both cutoffs off it makes one call for each position of the game tree. -/
theorem minimax_eq_value {b : Board} {depth move : Nat} (h : InPlay b depth move) {α β : Score}
    (hα : α < Score.lose) (hβ : Score.win < β) :
    (∀ cfg, (minimax cfg b α β depth move).score = .ok b.value)
      ∧ (minimax .plain b α β depth move).nodes = b.positions := by
  refine ⟨fun cfg => ?_, ?_⟩
  · rw [minimax_eq_search h.nine_le h.verdict_eq, h.complete.search_eq_value cfg hα hβ,
      h.value_gameTree]
  · rw [minimax_plain h.nine_le h.verdict_eq, h.size_gameTree]

/-- Five moves after the opening, with a cross to move, in a narrow window. -/
theorem minimax_eq_value_midgame :
    InPlay [1, 2, 1, 2, 2, 1, 0, 0, 0] 5 4 ∧ (3 : Score) < Score.lose ∧ Score.win < (7 : Score)
      ∧ (∀ cfg, (minimax cfg [1, 2, 1, 2, 2, 1, 0, 0, 0] 3 7 (5 : Nat) (4 : Nat)).score
        = .ok (Board.value [1, 2, 1, 2, 2, 1, 0, 0, 0]))
      ∧ (minimax .plain [1, 2, 1, 2, 2, 1, 0, 0, 0] 3 7 (5 : Nat) (4 : Nat)).nodes
        = Board.positions [1, 2, 1, 2, 2, 1, 0, 0, 0] := by
  have h : InPlay [1, 2, 1, 2, 2, 1, 0, 0, 0] 5 4 :=
    ⟨rfl, by decide, by decide, by decide, by decide, rfl⟩
  exact ⟨h, by decide, by decide, minimax_eq_value h (by decide) (by decide)⟩

end Noughts
