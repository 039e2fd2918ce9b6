import Noughts.Proofs.SearchTree

/-!
# What a failing search leaves behind

A search that finds a score takes every move back (`minimax_board`).  A search that meets a fault
does not: the fault passes through all the calls that wait for it, and none of them gets to clear
its cell.  So the pieces that stay are those of one path, from the first call to the one that met
the fault; what was tried beside that path had been taken back before.

* `Trail`: a board comes from another by moves in turn on empty cells.  `Trail.leaves` says what
  that does to the board.
* `failsOnTrail_nest`: a failing search ends at the end of a trail, and has made a call for every
  move on it and one more.
* `exists_sweep_error`: without cutoffs, a sweep over a cell that the board does not have meets a
  fault, sooner or later.
* `minimax_leaves_trail`: the two together.
-/

set_option autoImplicit false

namespace Noughts

/-! ## Moves in turn -/

/-- The moves on `cells`, one after the other from a given depth on, lead from the first board to
the second, and each of them is made on an empty cell. -/
inductive Trail : Board → Int → List Nat → Board → Prop where
  | stay (b : Board) (depth : Int) : Trail b depth [] b
  | move {b t : Board} {depth : Int} {cell : Nat} {cells : List Nat}
      (free : b[cell]? = some Cell.empty) (later : Trail (after b depth cell) (depth + 1) cells t) :
      Trail b depth (cell :: cells) t

/-- How many of the cells have the piece on them. -/
def share (t : Board) (cells : List Nat) (p : Cell) : Nat :=
  cells.countP fun cell => decide (t[cell]? = some p)

/-- What moves in turn leave on a board: the cells they took, which were empty and now hold noughts
and crosses by turns, and all else as it was. -/
structure Leaves (b : Board) (depth : Int) (cells : List Nat) (t : Board) : Prop where
  nodup : cells.Nodup
  free : ∀ cell ∈ cells, b[cell]? = some Cell.empty
  length : t.length = b.length
  elsewhere : ∀ cell, cell ∉ cells → t[cell]? = b[cell]?
  inTurn : ∀ (i : Nat) (h : i < cells.length),
    t[cells[i]]? = some (if (depth + i) % 2 = 0 then Cell.nought else Cell.cross)
  /-- At even depth the noughts have the first move, and so the larger share. -/
  noughts_first : depth % 2 = 0 → share t cells Cell.nought = (cells.length + 1) / 2
    ∧ share t cells Cell.cross = cells.length / 2
  /-- At odd depth it is the crosses. -/
  crosses_first : depth % 2 ≠ 0 → share t cells Cell.cross = (cells.length + 1) / 2
    ∧ share t cells Cell.nought = cells.length / 2

namespace Trail

variable {b t : Board} {depth : Int} {cells : List Nat} {cell : Nat}

/-- A cell that is free after a move was free before, and is another. -/
theorem free_of_after (hcell : b[cell]? = some Cell.empty) {other : Nat}
    (h : (after b depth cell)[other]? = some Cell.empty) :
    other ≠ cell ∧ b[other]? = some Cell.empty := by
  by_cases he : cell = other
  · rw [← he, getElem?_after_self depth hcell] at h
    exact absurd (Option.some.inj h) (Side.piece_ne_empty _)
  · rw [getElem?_after_of_ne b depth he] at h
    exact ⟨Ne.symm he, h⟩

theorem free (h : Trail b depth cells t) : ∀ cell ∈ cells, b[cell]? = some Cell.empty := by
  induction h with
  | stay => simp
  | move hcell _ ih =>
    intro other hother
    rcases List.mem_cons.mp hother with rfl | hother
    · exact hcell
    · exact (free_of_after hcell (ih other hother)).2

/-- The first cell of a trail is not taken again. -/
theorem head_not_mem (hcell : b[cell]? = some Cell.empty)
    (h : Trail (after b depth cell) (depth + 1) cells t) : cell ∉ cells := fun hmem =>
  (free_of_after hcell (h.free cell hmem)).1 rfl

theorem nodup (h : Trail b depth cells t) : cells.Nodup := by
  induction h with
  | stay => exact List.nodup_nil
  | move hcell later ih => exact List.nodup_cons.mpr ⟨head_not_mem hcell later, ih⟩

theorem length_eq (h : Trail b depth cells t) : t.length = b.length := by
  induction h with
  | stay => rfl
  | move _ _ ih => rw [ih, length_after]

theorem elsewhere (h : Trail b depth cells t) : ∀ cell, cell ∉ cells → t[cell]? = b[cell]? := by
  induction h with
  | stay => exact fun _ _ => rfl
  | move _ _ ih =>
    intro other hother
    obtain ⟨hne, hnot⟩ := not_or.mp (mt List.mem_cons.mpr hother)
    rw [ih other hnot, getElem?_after_of_ne _ _ (Ne.symm hne)]

/-- The first move is still there at the end. -/
theorem head_getElem? (hcell : b[cell]? = some Cell.empty)
    (h : Trail (after b depth cell) (depth + 1) cells t) :
    t[cell]? = some (Side.atDepth depth).piece := by
  rw [h.elsewhere cell (head_not_mem hcell h), getElem?_after_self depth hcell]

theorem getElem?_eq (h : Trail b depth cells t) (i : Nat) (hi : i < cells.length) :
    t[cells[i]]? = some (Side.atDepth (depth + i)).piece := by
  induction h generalizing i with
  | stay => cases hi
  | @move b t depth cell cells hcell later ih =>
    cases i with
    | zero => simpa using head_getElem? hcell later
    | succ i =>
      have hlater := ih i (by simpa using hi)
      rw [List.getElem_cons_succ, hlater]
      congr 3
      push_cast
      omega

/-- **The two sides share the cells**: whoever moves first has one more if they are odd in number. -/
theorem share_eq (h : Trail b depth cells t) :
    share t cells (Side.atDepth depth).piece = (cells.length + 1) / 2
      ∧ share t cells (Side.atDepth depth).other.piece = cells.length / 2 := by
  induction h with
  | stay => exact ⟨rfl, rfl⟩
  | @move b t depth cell cells hcell later ih =>
    have hhead := head_getElem? hcell later
    -- Later on, the side that moves now is the one that moves second.
    rw [Side.atDepth_add_one, Side.other_other] at ih
    obtain ⟨hother, hmover⟩ := ih
    rw [share] at hmover hother
    constructor
    · rw [share, List.countP_cons_of_pos (by simpa using hhead), hmover, List.length_cons]
      omega
    · have hne := (Side.piece_other_ne (Side.atDepth depth)).symm
      rw [share, List.countP_cons_of_neg (by simpa [hhead] using hne), hother, List.length_cons]

/-- **What a trail does to the board.** -/
theorem leaves (h : Trail b depth cells t) : Leaves b depth cells t where
  nodup := h.nodup
  free := h.free
  length := h.length_eq
  elsewhere := h.elsewhere
  inTurn i hi := by rw [h.getElem?_eq i hi, Side.piece_atDepth]
  noughts_first hd := by
    have hshare := h.share_eq
    rwa [← Side.atDepth_add_one, Side.piece_atDepth, Side.piece_atDepth, if_pos hd,
      if_neg (by omega)] at hshare
  crosses_first hd := by
    have hshare := h.share_eq
    rwa [← Side.atDepth_add_one, Side.piece_atDepth, Side.piece_atDepth, if_neg hd,
      if_pos (by omega)] at hshare

end Trail

/-! ## A fault leaves a trail -/

variable {cfg : Pruning} {child : Scorer}

/-- A scorer that, when it meets a fault, ends at the end of a trail from the board it was given, and
has made more calls than there are moves on it. -/
def FailsOnTrail (child : Scorer) : Prop :=
  ∀ (b : Board) (α β : Score) (depth move : Int) (f : Fault),
    (child b α β depth move).score = .error f →
      ∃ cells, Trail b depth cells (child b α β depth move).board
        ∧ cells.length < (child b α β depth move).nodes

theorem sweep_trail (hr : Restores child) (hc : FailsOnTrail child) {depth : Int} {cells : List Nat}
    {b : Board} {α β best : Score} {f : Fault}
    (h : (sweep cfg child depth cells b α β best).score = .error f) :
    ∃ taken, Trail b depth taken (sweep cfg child depth cells b α β best).board
      ∧ taken.length ≤ (sweep cfg child depth cells b α β best).nodes := by
  -- In turn: no cell is left, a cell is missing, a fault below, a child that ends the sweep, a child
  -- after which it goes on, a cell that is taken.
  fun_induction sweep cfg child depth cells b α β best with
  | case1 => cases h
  | case2 => exact ⟨[], .stay _ _, Nat.zero_le _⟩
  | case3 cell rest b α β best side below g hg hb =>
    obtain ⟨taken, htrail, hlen⟩ := hc _ _ _ _ _ _ hg
    exact ⟨cell :: taken, .move hb htrail, hlen⟩
  | case4 => cases h
  | case5 cell rest b α β best side below t hs restored α' β' best' hw hb ih =>
    obtain ⟨taken, htrail, hlen⟩ := ih h
    have hback : restored = b := hr.taken_back hb hs
    rw [hback] at htrail hlen
    rw [hback]
    exact ⟨taken, htrail, Nat.le_add_left_of_le hlen⟩
  | case6 cell rest b α β best c _ _ ih => exact ih h

theorem failsOnTrail_node (hr : Restores child) (hc : FailsOnTrail child) :
    FailsOnTrail (node cfg child) := by
  intro b α β depth move f h
  rw [node] at h ⊢
  cases hv : verdict b depth move with
  | error g => exact ⟨[], .stay _ _, Nat.zero_lt_one⟩
  | ok v =>
    cases v with
    | some s => simp [hv] at h
    | none =>
      simp only [hv] at h ⊢
      obtain ⟨taken, htrail, hlen⟩ := sweep_trail hr hc h
      exact ⟨taken, htrail, Nat.lt_one_add_iff.mpr hlen⟩

/-- **A search that meets a fault leaves a trail.** -/
theorem failsOnTrail_nest (n : Nat) : FailsOnTrail (nest cfg noCall n) := by
  induction n with
  | zero =>
    intro b α β depth move f h
    cases h
  | succ n ih => exact failsOnTrail_node (restores_nest n) ih

/-! ## Boards that are too short -/

/-- **A sweep without cutoffs over a missing cell meets a fault**: it does not stop before it gets
there, unless it meets a fault even earlier. -/
theorem exists_sweep_error (hr : Restores child) {depth : Int} {cells : List Nat} {b : Board}
    {missing : Nat} (hmem : missing ∈ cells) (hlen : b.length ≤ missing) (α β best : Score) :
    ∃ f, (sweep .plain child depth cells b α β best).score = .error f := by
  induction cells generalizing α β best with
  | nil => cases hmem
  | cons cell rest ih =>
    rw [sweep]
    cases hb : b[cell]? with
    | none => exact ⟨_, rfl⟩
    | some c =>
      have hlt := (List.getElem?_eq_some_iff.mp hb).1
      have ih := ih ((List.mem_cons.mp hmem).resolve_left (by omega))
      by_cases hce : c = Cell.empty
      · subst hce
        simp only [if_true]
        cases hs : (child (b.set cell (Side.atDepth depth).piece) α β (depth + 1) cell).score with
        | error f => exact ⟨f, rfl⟩
        | ok s =>
          simp only [Tree.weigh_plain, hr.taken_back hb hs, Outcome.charge]
          exact ih _ _ _
      · simp only [hce, if_false]
        exact ih _ _ _

/-- The call is decided at once: late enough, with a line of its last move or a full board. -/
def Settled (b : Board) (depth move : Int) : Prop :=
  firstLineDepth ≤ depth ∧ ((∃ p, winnerThrough b move = .ok p ∧ p ≠ Cell.empty)
    ∨ winnerThrough b move = .ok Cell.empty ∧ depth = fullDepth)

theorem settled_iff {b : Board} {depth move : Int} :
    Settled b depth move ↔ ∃ s, verdict b depth move = .ok (some s) := by
  by_cases hd : depth < firstLineDepth
  · simp [Settled, verdict_of_early hd, not_le.mpr hd]
  · have hlate := not_lt.mp hd
    cases hw : winnerThrough b move with
    | error f => simp [Settled, hw, verdict_of_fault hd hw]
    | ok p =>
      by_cases hp : p = Cell.empty
      · subst hp
        simp [Settled, hw, hlate, verdict_of_empty hd hw]
      · simp [Settled, hw, hp, hlate, verdict_of_owner hd hw hp]

/-- **On a board that is too short**, a search without cutoffs meets a fault unless its first call
is settled. -/
theorem exists_minimax_error {b : Board} (hb : b.length < 9) {depth move : Int}
    (h : ¬ Settled b depth move) (α β : Score) :
    ∃ f, (minimax .plain b α β depth move).score = .error f := by
  cases hv : verdict b depth move with
  | error f => exact ⟨f, by rw [minimax_of_fault hv]⟩
  | ok v =>
    cases v with
    | some s => exact absurd (settled_iff.mpr ⟨s, hv⟩) h
    | none =>
      have hmissing : 8 ∈ cellOrder := by decide
      obtain ⟨f, hf⟩ := exists_sweep_error restores_minimax hmissing (Nat.le_of_lt_succ hb) α β
        (Side.atDepth depth).seed
      exact ⟨f, by rw [minimax_eq_node, node, hv]; exact hf⟩

theorem exists_minimax_of_settled {cfg : Pruning} {b : Board} {depth move : Int}
    (h : Settled b depth move) (α β : Score) :
    ∃ s, minimax cfg b α β depth move = ⟨.ok s, 1, b⟩ := by
  obtain ⟨s, hv⟩ := settled_iff.mp h
  exact ⟨s, by rw [minimax_eq_node, node, hv]⟩

/-! ## Conclusion -/

/-- **What a failing search leaves behind.**  On a board of any length, a search that meets a fault
has changed nothing but some cells that were empty: they hold noughts and crosses by turns,
beginning with the side that the depth says is to move, and the search has made at least one call
more than there are such cells.  On a board that has not got its nine cells, a search with both
cutoffs off finds a score only if its first call is settled, and then that is the only call; any
other ends in a fault. -/
theorem minimax_leaves_trail (b : Board) (depth move : Int) :
    (∀ cfg α β f, (minimax cfg b α β depth move).score = .error f →
        ∃ cells, Leaves b depth cells (minimax cfg b α β depth move).board
          ∧ cells.length + 1 ≤ (minimax cfg b α β depth move).nodes)
      ∧ (b.length < 9 → ∀ α β,
        (Settled b depth move → ∃ s, minimax .plain b α β depth move = ⟨.ok s, 1, b⟩)
          ∧ (¬ Settled b depth move →
            ∃ f, (minimax .plain b α β depth move).score = .error f)) := by
  refine ⟨fun cfg α β f h => ?_, fun hb α β => ⟨fun h => exists_minimax_of_settled h α β,
    fun h => exists_minimax_error hb h α β⟩⟩
  obtain ⟨cells, htrail, hlen⟩ := failsOnTrail_nest _ _ _ _ _ _ _ h
  exact ⟨cells, htrail.leaves, hlen⟩

/-- A board of five cells.  A cross on the first of them completes a line and is taken back; on the
fourth it leads to two more moves, after which the cell beside the last is missing.  On a board of
three cells, a line that is there settles the call. -/
theorem minimax_leaves_trail_short :
    (minimax .plain [0, 1, 1, 0, 0] 2 9 3 1).score = .error (.absent .cells)
      ∧ (∃ cells, Leaves [0, 1, 1, 0, 0] 3 cells [2, 1, 1, 1, 1] ∧ cells.length + 1 ≤ 5)
      ∧ ([0, 1, 1, 0, 0] : Board).length < 9 ∧ ¬ Settled [0, 1, 1, 0, 0] 3 1
      ∧ (∃ f, (minimax .plain [0, 1, 1, 0, 0] 2 9 3 1).score = .error f)
      ∧ ([1, 1, 1] : Board).length < 9 ∧ Settled [1, 1, 1] 4 0
      ∧ ∃ s, minimax .plain [1, 1, 1] 2 9 4 0 = ⟨.ok s, 1, [1, 1, 1]⟩ := by
  have hfault : (minimax .plain [0, 1, 1, 0, 0] 2 9 3 1).score = .error (.absent .cells) := rfl
  have hopen : ¬ Settled [0, 1, 1, 0, 0] 3 1 := fun h => absurd h.1 (by decide)
  have hsettled : Settled [1, 1, 1] 4 0 := ⟨by decide, Or.inl ⟨1, rfl, by decide⟩⟩
  obtain ⟨hleaves, hshort⟩ := minimax_leaves_trail [0, 1, 1, 0, 0] 3 1
  exact ⟨hfault, hleaves _ _ _ _ hfault, by decide, hopen, (hshort (by decide) 2 9).2 hopen,
    by decide, hsettled, ((minimax_leaves_trail [1, 1, 1] 4 0).2 (by decide) 2 9).1 hsettled⟩

end Noughts
