import Noughts.Search.Calls
import Noughts.Search.Writes
import Noughts.Proofs.BestPlay

/-!
# The tree of calls

The calls of a search make up a tree: every call but the first is made by another call of the same
search, one that is not decided, on a cell that is empty there (`Call.Follows`).  This is not a
matter of how the list of calls is written down.  All the calls share one board, and a piece that
some call left behind would stand on the boards of all calls after it; that none does is
`minimax_board`, carried down the nesting.

* `unfolds_calls`: the calls of any search are the calls of a tree, and no two of them are at the
  end of the same moves.
* `Unfolds.induction`: so what holds of the first call and passes from a call to those it makes
  holds of all calls.
* `placements_writes`: a search places one piece for every call but the first.
* `calls_take_turns`: in a game, every call is a position of the game.
-/

set_option autoImplicit false

namespace Noughts

open Board (Line winningLines)

/-! ## Which call follows which -/

/-- `c` is one of the calls that `parent` makes, on the given cell. -/
structure Call.Follows (c parent : Call) (cell : Nat) : Prop where
  /-- The parent is not decided at once. -/
  undecided : verdict parent.board parent.depth parent.move = .ok none
  cell_lt : cell < 9
  free : parent.board[cell]? = some Cell.empty
  played : c.played = parent.played ++ [cell]
  /-- The side to move, which the depth tells, has taken the cell. -/
  board : c.board = after parent.board parent.depth cell
  depth : c.depth = parent.depth + 1
  move : c.move = cell

/-- `cs` are the calls of a search whose first call is `root`. -/
structure Unfolds (root : Call) (cs : List Call) : Prop where
  root_mem : root ∈ cs
  /-- Every other call is made by one of the calls. -/
  follows : ∀ c ∈ cs, c = root ∨ ∃ parent ∈ cs, ∃ cell, c.Follows parent cell
  /-- The moves that lead to a call lead to no other. -/
  nodup : (cs.map Call.played).Nodup

namespace Unfolds

variable {root : Call} {cs : List Call}

/-- **Induction along the calls of a search.** -/
theorem induction (h : Unfolds root cs) {P : Call → Prop} (first : P root)
    (next : ∀ parent ∈ cs, ∀ cell c, P parent → c.Follows parent cell → P c) :
    ∀ c ∈ cs, P c := by
  intro c hc
  -- The moves that lead to the parent are one fewer.
  induction hn : c.played.length generalizing c with
  | zero =>
    rcases h.follows c hc with rfl | ⟨parent, _, cell, hf⟩
    · exact first
    · simp [hf.played] at hn
  | succ n ih =>
    rcases h.follows c hc with rfl | ⟨parent, hp, cell, hf⟩
    · exact first
    · have hlen : parent.played.length = n := by simpa [hf.played] using hn
      exact next parent hp cell c (ih parent hp hlen) hf

/-- The moves of every call begin with those of the first. -/
theorem prefix_played (h : Unfolds root cs) : ∀ c ∈ cs, root.played <+: c.played := by
  refine h.induction (List.prefix_refl _) fun parent _ cell c hp hf => ?_
  rw [hf.played]
  exact hp.trans (List.prefix_append _ _)

end Unfolds

/-! ## The calls below a sweep -/

/-- Of two continuations of one list at most one has a given next entry. -/
theorem eq_of_prefix_concat {xs ys : List Nat} {c d : Nat} (hc : xs ++ [c] <+: ys)
    (hd : xs ++ [d] <+: ys) : c = d := by
  have hlen : (xs ++ [c]).length = (xs ++ [d]).length := by simp
  have heq := (List.prefix_of_prefix_length_le hc hd (Nat.le_of_eq hlen)).eq_of_length hlen
  simpa using heq

section Sweep

variable {cfg : Pruning} {child : Scorer} {below : Lister} {played cells : List Nat} {depth : Int}
  {b : Board} {cell : Nat} {rest : List Nat}

/-- **What a sweep calls when it comes to an empty cell**, if its scorer takes its moves back: the
calls below that cell, and unless it stops there, those of a sweep of the same board over the cells
that are left. -/
theorem sweepCalls_open (hc : Restores child) (hb : b[cell]? = some Cell.empty)
    (α β best : Score) :
    ∃ later, sweepCalls cfg child below played depth (cell :: rest) b α β best
        = below (played ++ [cell]) (after b depth cell) α β (depth + 1) cell ++ later
      ∧ (later = [] ∨ ∃ α' β' best',
        later = sweepCalls cfg child below played depth rest b α' β' best') := by
  rw [sweepCalls, hb]
  simp only [if_true, after]
  cases hs : (child (b.set cell (Side.atDepth depth).piece) α β (depth + 1) cell).score with
  | error f => exact ⟨[], (List.append_nil _).symm, Or.inl rfl⟩
  | ok score =>
    rw [hc.taken_back hb hs]
    cases hw : weigh cfg (Side.atDepth depth) α β best score with
    | stop s => exact ⟨[], by simp only [hw, List.append_nil], Or.inl rfl⟩
    | resume α' β' best' => exact ⟨_, by simp only [hw], Or.inr ⟨α', β', best', rfl⟩⟩

/-- A sweep makes no call on a cell that is taken, and none at all once a cell is missing. -/
theorem sweepCalls_taken (hb : b[cell]? ≠ some Cell.empty) (α β best : Score) :
    sweepCalls cfg child below played depth (cell :: rest) b α β best = []
      ∨ sweepCalls cfg child below played depth (cell :: rest) b α β best
        = sweepCalls cfg child below played depth rest b α β best := by
  rw [sweepCalls]
  cases hget : b[cell]? with
  | none => exact Or.inl rfl
  | some c =>
    have hce : c ≠ Cell.empty := fun he => hb (by rw [hget, he])
    exact Or.inr (if_neg hce)

theorem mem_sweepCalls (hc : Restores child) {α β best : Score} {c : Call}
    (h : c ∈ sweepCalls cfg child below played depth cells b α β best) :
    ∃ cell ∈ cells, b[cell]? = some Cell.empty ∧ ∃ α' β',
      c ∈ below (played ++ [cell]) (after b depth cell) α' β' (depth + 1) cell
        ∧ below (played ++ [cell]) (after b depth cell) α' β' (depth + 1) cell
          ⊆ sweepCalls cfg child below played depth cells b α β best := by
  induction cells generalizing α β best with
  | nil => cases h
  | cons cell rest ih =>
    by_cases hb : b[cell]? = some Cell.empty
    · obtain ⟨later, heq, hlater⟩ := sweepCalls_open hc hb α β best
      rw [heq] at h ⊢
      rcases List.mem_append.mp h with h | h
      · exact ⟨cell, List.mem_cons_self, hb, α, β, h, List.subset_append_left _ _⟩
      · rcases hlater with rfl | ⟨α', β', best', rfl⟩
        · cases h
        · obtain ⟨cell', hcell', hb', α'', β'', hmem, hsub⟩ := ih h
          exact ⟨cell', List.mem_cons_of_mem _ hcell', hb', α'', β'', hmem,
            List.Subset.trans hsub (List.subset_append_right _ _)⟩
    · rcases sweepCalls_taken hb α β best with heq | heq
      · rw [heq] at h
        cases h
      · rw [heq] at h ⊢
        obtain ⟨cell', hcell', hcall⟩ := ih h
        exact ⟨cell', List.mem_cons_of_mem _ hcell', hcall⟩

/-- Calls below different cells are at the end of different moves. -/
theorem nodup_sweepCalls (hc : Restores child) (hcells : cells.Nodup)
    (hbelow : ∀ cell ∈ cells, b[cell]? = some Cell.empty → ∀ α β,
      Unfolds ⟨played ++ [cell], after b depth cell, depth + 1, cell⟩
        (below (played ++ [cell]) (after b depth cell) α β (depth + 1) cell)) (α β best : Score) :
    ((sweepCalls cfg child below played depth cells b α β best).map Call.played).Nodup := by
  induction cells generalizing α β best with
  | nil => exact List.nodup_nil
  | cons cell rest ih =>
    obtain ⟨hnot, hrest⟩ := List.nodup_cons.mp hcells
    have hbelow' := fun c hcell => hbelow c (List.mem_cons_of_mem cell hcell)
    have ih := ih hrest hbelow'
    by_cases hb : b[cell]? = some Cell.empty
    · obtain ⟨later, heq, hlater⟩ := sweepCalls_open hc hb α β best
      have hmine := hbelow cell List.mem_cons_self hb α β
      rw [heq, List.map_append]
      refine List.nodup_append.mpr ⟨hmine.nodup, ?_, ?_⟩
      · rcases hlater with rfl | ⟨α', β', best', rfl⟩
        · exact List.nodup_nil
        · exact ih α' β' best'
      · -- A call on either side begins with the moves so far and one more, and that one differs.
        intro moves hmoves moves' hmoves' hsame
        obtain ⟨c, hcall, rfl⟩ := List.mem_map.mp hmoves
        obtain ⟨c', hcall', rfl⟩ := List.mem_map.mp hmoves'
        obtain ⟨cell', hcell', hpre⟩ : ∃ cell' ∈ rest, played ++ [cell'] <+: c'.played := by
          rcases hlater with rfl | ⟨α', β', best', rfl⟩
          · cases hcall'
          · obtain ⟨cell', hcell', hb', α'', β'', hmem, -⟩ := mem_sweepCalls hc hcall'
            exact ⟨cell', hcell', (hbelow' cell' hcell' hb' α'' β'').prefix_played c' hmem⟩
        rw [← hsame] at hpre
        exact hnot (eq_of_prefix_concat (hmine.prefix_played c hcall) hpre ▸ hcell')
    · rcases sweepCalls_taken hb α β best with heq | heq
      · rw [heq]
        exact List.nodup_nil
      · rw [heq]
        exact ih α β best

end Sweep

/-! ## The calls of a search -/

variable {cfg : Pruning} {b : Board} {α β : Score}

theorem nodup_cellOrder : cellOrder.Nodup := by decide

/-- A call over calls that unfold: the calls below it follow it or one another. -/
theorem unfolds_nodeCalls {child : Scorer} (hc : Restores child) {below : Lister}
    {played : List Nat} {depth move : Int}
    (h : ∀ cell ∈ cellOrder, b[cell]? = some Cell.empty → ∀ α β,
      Unfolds ⟨played ++ [cell], after b depth cell, depth + 1, cell⟩
        (below (played ++ [cell]) (after b depth cell) α β (depth + 1) cell)) :
    Unfolds ⟨played, b, depth, move⟩ (nodeCalls cfg child below played b α β depth move) := by
  rw [nodeCalls]
  split
  · next hv =>
    refine ⟨List.mem_cons_self, fun c hcall => ?_, ?_⟩
    · rcases List.mem_cons.mp hcall with rfl | hcall
      · exact Or.inl rfl
      · obtain ⟨cell, hcell, hb, α', β', hmem, hsub⟩ := mem_sweepCalls hc hcall
        refine Or.inr ?_
        rcases (h cell hcell hb α' β').follows c hmem with rfl | ⟨parent, hp, hf⟩
        · exact ⟨_, List.mem_cons_self, cell,
            ⟨hv, mem_cellOrder.mp hcell, hb, rfl, rfl, rfl, rfl⟩⟩
        · exact ⟨parent, List.mem_cons_of_mem _ (hsub hp), hf⟩
    · rw [List.map_cons, List.nodup_cons]
      refine ⟨fun hmem => ?_, nodup_sweepCalls hc nodup_cellOrder h α β _⟩
      -- The moves that lead to a call below are longer than those that lead to this one.
      obtain ⟨c, hcall, heq⟩ := List.mem_map.mp hmem
      obtain ⟨cell, hcell, hb, α', β', hmem, -⟩ := mem_sweepCalls hc hcall
      have hpre := ((h cell hcell hb α' β').prefix_played c hmem).length_le
      rw [heq, List.length_append, List.length_singleton] at hpre
      exact absurd hpre (Nat.not_succ_le_self _)
  · refine ⟨List.mem_cons_self, fun c hcall => Or.inl (by simpa using hcall), ?_⟩
    simp

theorem unfolds_nestCalls {n : Nat} (h : room b < n) (played : List Nat) (α β : Score)
    (depth move : Int) :
    Unfolds ⟨played, b, depth, move⟩ (nestCalls cfg noCall n played b α β depth move) := by
  induction n generalizing b played α β depth move with
  | zero => omega
  | succ n ih =>
    have hbelow : ∀ cell ∈ cellOrder, b[cell]? = some Cell.empty → ∀ α β,
        Unfolds ⟨played ++ [cell], after b depth cell, depth + 1, cell⟩
          (nestCalls cfg noCall n (played ++ [cell]) (after b depth cell) α β (depth + 1) cell) := by
      intro cell hcell hb α β
      have hroom := room_after depth (mem_openCells.mpr ⟨mem_cellOrder.mp hcell, hb⟩)
      exact ih (by omega) _ α β _ _
    rw [nestCalls]
    exact unfolds_nodeCalls (restores_nest n) hbelow

/-- **The calls of a search are the calls of a tree**, on any board and however the search ends. -/
theorem unfolds_calls (cfg : Pruning) (b : Board) (α β : Score) (depth move : Int) :
    Unfolds ⟨[], b, depth, move⟩ (calls cfg b α β depth move) :=
  unfolds_nestCalls (Nat.lt_succ_self _) [] α β depth move

/-! ## One piece for every call but the first -/

section Placements

variable {child : Scorer} {below : Scribe} {depth : Int} {cells : List Nat}

theorem placements_append (ws vs : List Write) :
    placements (ws ++ vs) = placements ws + placements vs :=
  List.countP_append

/-- Placing a piece, with what is written below. -/
theorem placements_cons_piece (cell : Nat) (side : Side) (ws : List Write) :
    placements (⟨cell, side.piece⟩ :: ws) = placements ws + 1 :=
  List.countP_cons_of_pos (by simpa using side.piece_ne_empty)

/-- Taking a piece back places none. -/
theorem placements_cons_empty (cell : Nat) (ws : List Write) :
    placements (⟨cell, Cell.empty⟩ :: ws) = placements ws :=
  List.countP_cons_of_neg (by simp)

/-- If each call below places one piece less than it makes calls, a sweep places as many as it makes
calls: one more before each of them. -/
theorem placements_sweepWrites (hc : Restores child)
    (h : ∀ cell ∈ cells, b[cell]? = some Cell.empty → ∀ α β,
      placements (below (after b depth cell) α β (depth + 1) cell) + 1
        = (child (after b depth cell) α β (depth + 1) cell).nodes) (α β best : Score) :
    placements (sweepWrites cfg child below depth cells b α β best)
      = (sweep cfg child depth cells b α β best).nodes := by
  induction cells generalizing α β best with
  | nil => rfl
  | cons cell rest ih =>
    have ih := ih fun c hcell => h c (List.mem_cons_of_mem _ hcell)
    rw [sweepWrites, sweep]
    cases hb : b[cell]? with
    | none => rfl
    | some c =>
      by_cases hce : c = Cell.empty
      · subst hce
        have hbelow := h cell List.mem_cons_self hb α β
        simp only [if_true]
        rw [after] at hbelow
        cases hs : (child (b.set cell (Side.atDepth depth).piece) α β (depth + 1) cell).score with
        | error f => rw [placements_cons_piece, hbelow]
        | ok score =>
          rw [hc.taken_back hb hs]
          cases hw : weigh cfg (Side.atDepth depth) α β best score with
          | stop s =>
            simp only [hw, placements_append, placements_cons_piece, placements_cons_empty]
            exact hbelow
          | resume α' β' best' =>
            simp only [hw, placements_append, placements_cons_piece, placements_cons_empty, hbelow,
              ih, Outcome.charge]
      · simp only [hce, if_false, ih]

theorem placements_nodeWrites (hc : Restores child)
    (h : ∀ cell ∈ cellOrder, b[cell]? = some Cell.empty → ∀ α β,
      placements (below (after b depth cell) α β (depth + 1) cell) + 1
        = (child (after b depth cell) α β (depth + 1) cell).nodes) (α β : Score) (move : Int) :
    placements (nodeWrites cfg child below b α β depth move) + 1
      = (node cfg child b α β depth move).nodes := by
  rw [nodeWrites, node]
  cases hv : verdict b depth move with
  | error f => rfl
  | ok v =>
    cases v with
    | some s => rfl
    | none =>
      simp only [placements_sweepWrites hc h, Outcome.charge]
      exact Nat.add_comm _ _

theorem placements_nestWrites {n : Nat} (h : room b < n) (α β : Score) (depth move : Int) :
    placements (nestWrites cfg noCall n b α β depth move) + 1
      = (nest cfg noCall n b α β depth move).nodes := by
  induction n generalizing b α β depth move with
  | zero => omega
  | succ n ih =>
    have hbelow : ∀ cell ∈ cellOrder, b[cell]? = some Cell.empty → ∀ α β,
        placements (nestWrites cfg noCall n (after b depth cell) α β (depth + 1) cell) + 1
          = (nest cfg noCall n (after b depth cell) α β (depth + 1) cell).nodes := by
      intro cell hcell hb α β
      have hroom := room_after depth (mem_openCells.mpr ⟨mem_cellOrder.mp hcell, hb⟩)
      exact ih (by omega) α β _ _
    exact placements_nodeWrites (restores_nest n) hbelow α β move

/-- **A search places one piece for every call but the first**, on any board. -/
theorem placements_writes (cfg : Pruning) (b : Board) (α β : Score) (depth move : Int) :
    placements (writes cfg b α β depth move) + 1 = (minimax cfg b α β depth move).nodes :=
  placements_nestWrites (Nat.lt_succ_self _) α β depth move

end Placements

/-! ## In a game -/

/-- A call in the middle of a game, `depth` moves after the opening and after `move`. -/
structure Call.InTurn (c : Call) (depth move : Nat) : Prop where
  depth_eq : c.depth = depth
  move_eq : c.move = move
  inPlay : InPlay c.board depth move
  depth_le : depth ≤ 8
  occupied : c.board.countP (fun p => decide (p ≠ Cell.empty)) = depth + 1
  /-- Nobody owns a line that the last move is not on. -/
  not_owned : ∀ l ∈ winningLines, move ∉ l.cells → ¬ c.board.Owned l

namespace InPlay

variable {depth move : Nat}

theorem occupied (h : InPlay b depth move) :
    b.countP (fun p => decide (p ≠ Cell.empty)) = depth + 1 := by
  have hsplit := List.length_eq_countP_add_countP (fun p => decide (p ≠ Cell.empty)) (l := b)
  have hempty : b.countP (fun p => ¬ decide (p ≠ Cell.empty)) = b.count Cell.empty := by
    simp [List.count, beq_eq_decide]
  have hcount := h.count_empty
  have hlength := h.length
  omega

/-- A call on a position of a game is in the middle of it. -/
theorem inTurn (h : InPlay b depth move) {c : Call} (hboard : c.board = b) (hdepth : c.depth = depth)
    (hmove : c.move = move) : c.InTurn depth move := by
  subst hboard
  refine ⟨hdepth, hmove, h, h.depth_le, h.occupied, fun l hl hn ho => hn ?_⟩
  exact (Board.mem_linesAt.mp (Board.mem_linesAt_of_owned h.nine_le h.fresh hl ho)).2

end InPlay

/-- The calls that a call in the middle of a game makes are one move further on. -/
theorem Call.InTurn.next {parent c : Call} {depth move cell : Nat} (h : parent.InTurn depth move)
    (hf : c.Follows parent cell) : c.InTurn (depth + 1) cell := by
  have hopen : parent.board.outcome? = none := by
    have hv := hf.undecided
    rw [h.depth_eq, h.move_eq, h.inPlay.verdict_eq] at hv
    exact Except.ok.inj hv
  have hnext := h.inPlay.next hopen (mem_openCells.mpr ⟨hf.cell_lt, hf.free⟩)
  refine hnext.inTurn (by rw [hf.board, h.depth_eq]) ?_ hf.move
  rw [hf.depth, h.depth_eq]
  rfl

/-- The piece that a call finds on the cell of its move. -/
theorem Call.Follows.getElem?_board {c parent : Call} {cell : Nat} (h : c.Follows parent cell) :
    c.board[cell]? = some (if parent.depth % 2 = 0 then Cell.nought else Cell.cross) := by
  rw [h.board, getElem?_after_self parent.depth h.free, Side.piece_atDepth]

/-- **Turn alternation and the count of calls.**  In a search that starts from a position of a game,
in any configuration and any window, every call is in the middle of that game: as deep as there
are moves, with the pieces of both sides in turn, and with no line that its last move is not on.
Every call but the first puts a nought at even depth and a cross at odd depth on a cell that is
empty in the call that makes it.  No two calls are at the end of the same moves, and the nodes are
the calls, one more than the pieces placed among the writes that the search makes to its board. -/
theorem calls_take_turns {depth move : Nat} (h : InPlay b depth move) (cfg : Pruning)
    (α β : Score) :
    (∀ c ∈ calls cfg b α β depth move, ∃ d m : Nat, c.InTurn d m
        ∧ (c = ⟨[], b, depth, move⟩ ∨ ∃ parent ∈ calls cfg b α β depth move, c.Follows parent m
          ∧ c.board[m]? = some (if parent.depth % 2 = 0 then Cell.nought else Cell.cross)))
      ∧ ((calls cfg b α β depth move).map Call.played).Nodup
      ∧ (minimax cfg b α β depth move).nodes = (calls cfg b α β depth move).length
      ∧ (minimax cfg b α β depth move).nodes = placements (writes cfg b α β depth move) + 1
      ∧ b.written (writes cfg b α β depth move) = (minimax cfg b α β depth move).board := by
  have hunfolds := unfolds_calls cfg b α β depth move
  refine ⟨hunfolds.induction ?_ ?_, hunfolds.nodup, (length_calls cfg b α β depth move).symm,
    (placements_writes cfg b α β depth move).symm, written_writes cfg b α β depth move⟩
  · exact ⟨depth, move, h.inTurn rfl rfl rfl, Or.inl rfl⟩
  · rintro parent hparent cell c ⟨d, m, hturn, -⟩ hf
    exact ⟨d + 1, cell, hturn.next hf, Or.inr ⟨parent, hparent, hf, hf.getElem?_board⟩⟩

/-- Five moves after the opening, in a narrow window: the last of the moves on the cells `7`, `8`
and `6` comes after other moves were taken back. -/
theorem calls_take_turns_midgame :
    InPlay [1, 2, 1, 2, 2, 1, 0, 0, 0] 5 4
      ∧ (⟨[7, 8, 6], [1, 2, 1, 2, 2, 1, 1, 1, 2], 8, 6⟩ : Call)
        ∈ calls {} [1, 2, 1, 2, 2, 1, 0, 0, 0] 3 7 (5 : Nat) (4 : Nat)
      ∧ (∃ d m : Nat, Call.InTurn ⟨[7, 8, 6], [1, 2, 1, 2, 2, 1, 1, 1, 2], 8, 6⟩ d m)
      ∧ ((calls {} [1, 2, 1, 2, 2, 1, 0, 0, 0] 3 7 (5 : Nat) (4 : Nat)).map Call.played).Nodup
      ∧ (minimax {} [1, 2, 1, 2, 2, 1, 0, 0, 0] 3 7 (5 : Nat) (4 : Nat)).nodes
        = (calls {} [1, 2, 1, 2, 2, 1, 0, 0, 0] 3 7 (5 : Nat) (4 : Nat)).length
      ∧ (minimax {} [1, 2, 1, 2, 2, 1, 0, 0, 0] 3 7 (5 : Nat) (4 : Nat)).nodes
        = placements (writes {} [1, 2, 1, 2, 2, 1, 0, 0, 0] 3 7 (5 : Nat) (4 : Nat)) + 1
      ∧ Board.written [1, 2, 1, 2, 2, 1, 0, 0, 0]
          (writes {} [1, 2, 1, 2, 2, 1, 0, 0, 0] 3 7 (5 : Nat) (4 : Nat))
        = (minimax {} [1, 2, 1, 2, 2, 1, 0, 0, 0] 3 7 (5 : Nat) (4 : Nat)).board := by
  have h : InPlay [1, 2, 1, 2, 2, 1, 0, 0, 0] 5 4 :=
    ⟨rfl, by decide, by decide, by decide, by decide, rfl⟩
  have hmem : (⟨[7, 8, 6], [1, 2, 1, 2, 2, 1, 1, 1, 2], 8, 6⟩ : Call)
      ∈ calls {} [1, 2, 1, 2, 2, 1, 0, 0, 0] 3 7 (5 : Nat) (4 : Nat) := by decide
  obtain ⟨hcalls, hrest⟩ := calls_take_turns h {} 3 7
  obtain ⟨d, m, hturn, -⟩ := hcalls _ hmem
  exact ⟨h, hmem, ⟨d, m, hturn⟩, hrest⟩

end Noughts
