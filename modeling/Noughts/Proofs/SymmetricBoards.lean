import Noughts.Proofs.LineTest
import Noughts.Proofs.Symmetry
import Mathlib.Data.List.Sort

/-!
# What a symmetry does to a board

A symmetry is applied to a board and to a move by two different maps, one of which takes a cell to
its source and the other to its image.  Here is what fits together after both: the piece of a cell
is found on its image, the line test gives the same answer there, and the legal moves are the images
of the legal moves.  Nothing is asked of the pieces.

The full scan needs more care.  It names the owner of the first complete line, and a symmetry
changes which line comes first; so a board on which two pieces own a line may be named for the other
of them afterwards.  Where all complete lines have one owner (`Board.OneOwner`) the scan does not
notice the symmetry.

* `Symmetry.Carries.legalMoves_eq`, `Symmetry.Carries.winner_eq`,
  `Symmetry.Carries.winner_eq_empty_iff`: the three readers of a whole board.
* `Symmetry.exists_landing_trans`: after one symmetry another is a third, and
  `Symmetry.eq_of_landing` says that there is no choice in it.
* `transform_together`: all of this about the board and the move as they are transformed.
-/

set_option autoImplicit false

namespace Noughts

open Board (Line winningLines)

/-- No two pieces own a line each. -/
def Board.OneOwner (b : Board) : Prop :=
  ∀ l₁ ∈ winningLines, ∀ l₂ ∈ winningLines, ∀ p q, p ≠ Cell.empty → q ≠ Cell.empty →
    b.Owns p l₁ → b.Owns q l₂ → p = q

/-! ## Reading by a signed index -/

section Index

variable {b : Board} {i : Int} {cell : Nat}

theorem entry_of_position {table : Table} (hb : b.length = 9)
    (h : position table 9 i = .ok cell) : entry table b i = entryAt table b cell := by
  rw [entry, hb, h]

/-- The image of a cell that is counted from either end. -/
theorem Symmetry.image_of_position (s : Symmetry) (h : position .cells 9 i = .ok cell) :
    s.image i = .ok (s.landing cell) := by
  have hcell := (position_eq_ok_iff.mp h).1
  have hlength : s.images.length = 9 := by simp [images]
  rw [← s.image_natCast hcell, image, image, entry, entry, hlength, h, position_natCast hcell]

end Index

namespace Symmetry

/-! ## One symmetry after another -/

/-- A symmetry is known by where it takes the cells. -/
theorem eq_of_landing {s s' : Symmetry} (h : ∀ cell < 9, s.landing cell = s'.landing cell) :
    s = s' := by
  -- The corner and the cell beside it are enough.
  have hcorner := h 0 (by decide)
  have hedge := h 1 (by decide)
  revert hcorner hedge
  cases s <;> cases s' <;> decide

/-- **After one symmetry another is a third.** -/
theorem exists_landing_trans (k l : Symmetry) :
    ∃ m : Symmetry, ∀ cell < 9, m.landing cell = l.landing (k.landing cell) := by
  have hall : ∃ m ∈ all, ∀ cell < 9, m.landing cell = l.landing (k.landing cell) := by
    cases k <;> cases l <;> decide
  obtain ⟨m, -, hm⟩ := hall
  exact ⟨m, hm⟩

namespace Carries

variable {s k l m : Symmetry} {b t u : Board}

theorem trans (h : k.Carries b t) (h' : l.Carries t u)
    (hm : ∀ cell < 9, m.landing cell = l.landing (k.landing cell)) : m.Carries b u := by
  refine ⟨h.length_left, h'.length_right, ?_⟩
  intro cell hcell
  rw [hm cell hcell, h'.get _ (k.landing_lt hcell), h.get cell hcell]

/-- A board has one image. -/
theorem unique (h : s.Carries b t) (h' : s.Carries b u) : t = u := by
  refine List.ext_getElem? ?_
  intro i
  by_cases hi : i < 9
  · obtain ⟨cell, hcell, rfl⟩ := s.exists_landing hi
    rw [h.get cell hcell, h'.get cell hcell]
  · rw [List.getElem?_eq_none (by rw [h.length_right]; omega),
      List.getElem?_eq_none (by rw [h'.length_right]; omega)]

theorem transform_eq (h : s.Carries b t) : s.transform b = .ok t := by
  obtain ⟨u, hu, hcarries⟩ := s.exists_carries h.length_left
  rw [hu, hcarries.unique h]

/-! ## The readers of a whole board -/

/-- **The legal moves of the image are the images of the legal moves**, sorted again. -/
theorem legalMoves_eq (h : s.Carries b t) :
    t.legalMoves = (b.legalMoves.map s.landing).mergeSort := by
  have hsorted : t.legalMoves.Pairwise (· ≤ ·) :=
    (List.pairwise_lt_range.imp Nat.le_of_lt).filter _
  have hresult : ((b.legalMoves.map s.landing).mergeSort).Pairwise (· ≤ ·) :=
    List.pairwise_mergeSort' (· ≤ ·) _
  have hperm : t.legalMoves.Perm ((b.legalMoves.map s.landing).mergeSort) := by
    rw [legalMoves_eq_openCells h.length_right, legalMoves_eq_openCells h.length_left]
    exact h.perm_openCells.trans (List.mergeSort_perm _ _).symm
  exact hperm.eq_of_pairwise (fun _ _ _ _ => Nat.le_antisymm) hsorted hresult

/-- A piece owns a line of the image just if it owns one of the board. -/
theorem owns_line_iff (h : s.Carries b t) (p : Cell) :
    (∃ l ∈ winningLines, t.Owns p l) ↔ ∃ l ∈ winningLines, b.Owns p l := by
  constructor
  · rintro ⟨l', hl', ho⟩
    obtain ⟨l, hl, hp⟩ := s.exists_line_landing hl'
    exact ⟨l, hl, (h.owns_iff hl hp p).mp ho⟩
  · rintro ⟨l, hl, ho⟩
    obtain ⟨l', hl', hp⟩ := s.line_landing hl
    exact ⟨l', hl', (h.owns_iff hl hp p).mpr ho⟩

/-- The full scan of the image comes back empty just if that of the board does. -/
theorem winner_eq_empty_iff (h : s.Carries b t) :
    t.winner = .ok Cell.empty ↔ b.winner = .ok Cell.empty := by
  have howned : ∀ b : Board, (∀ l ∈ winningLines, ¬ b.Owned l)
      ↔ ∀ p, p ≠ Cell.empty → ¬ ∃ l ∈ winningLines, b.Owns p l := by
    intro b
    constructor
    · rintro hn p hp ⟨l, hl, ho⟩
      exact hn l hl ⟨p, hp, ho⟩
    · rintro hn l hl ⟨p, hp, ho⟩
      exact hn p hp ⟨l, hl, ho⟩
  rw [Board.winner_eq_empty_iff h.nine_le_right,
    Board.winner_eq_empty_iff h.nine_le_left, howned, howned]
  simp only [h.owns_line_iff]

/-- **Where one piece owns all the complete lines, the full scan of the image names the same
owner.** -/
theorem winner_eq (h : s.Carries b t) (hone : b.OneOwner) : t.winner = b.winner :=
  ((Board.ownerAmong_winner h.nine_le_left).eq_of_owns_iff
    (Board.ownerAmong_winner h.nine_le_right)
    (fun p _ => (h.owns_line_iff p).symm) hone).symm

/-! ## The cell and the line test -/

/-- **The piece of a cell is found on its image, and the line test gives the same answer there.** -/
theorem exists_image (h : s.Carries b t) {i : Int} (hi : InRange 9 i) :
    ∃ a : Nat, s.image i = .ok a ∧ a < 9
      ∧ (∃ p, entry .cells b i = .ok p ∧ entry .cells t a = .ok p)
      ∧ ∃ q, winnerThrough b i = .ok q ∧ winnerThrough t a = .ok q := by
  obtain ⟨cell, hpos⟩ := (exists_position_iff .cells).mpr hi
  have hcell := (position_eq_ok_iff.mp hpos).1
  have hland := s.landing_lt hcell
  refine ⟨s.landing cell, s.image_of_position hpos, hland, ?_, ?_⟩
  · obtain ⟨p, hp⟩ := exists_getElem? (hcell.trans_eq h.length_left.symm)
    refine ⟨p, ?_, ?_⟩
    · rw [entry_of_position h.length_left hpos, entryAt_of_getElem? hp]
    · rw [entry_natCast (hland.trans_eq h.length_right.symm),
        entryAt_of_getElem? ((h.get cell hcell).trans hp)]
  · obtain ⟨q, hq⟩ :=
      (ownerAmong_winnerThrough h.nine_le_left hcell).exists_ok
    exact ⟨q, (winnerThrough_of_position h.length_left hpos).trans hq,
      (h.winnerThrough_eq hcell).trans hq⟩

/-- The images of the legal moves, one by one. -/
theorem mapM_image (h : s.Carries b t) :
    b.legalMoves.mapM (fun cell : Nat => s.image cell) = .ok (b.legalMoves.map s.landing) := by
  refine mapM_eq_ok ?_
  intro cell hcell
  have hlt := (List.getElem?_eq_some_iff.mp (Board.mem_legalMoves.mp hcell)).1
  exact s.image_natCast (hlt.trans_eq h.length_left)

end Carries

end Symmetry

/-! ## Conclusion -/

/-- **Board, move, line test and legal moves transform together.**  On nine cells with any pieces,
and for a move that is counted from either end: its piece and what the line test says of it are
found at the image of the move on the transformed board.  The legal moves there are the images of
the legal moves, in ascending order.  The full scan comes back empty on both boards or on neither,
and names the same owner if all complete lines have one.  Two symmetries one after the other are a
single third one, of boards and of moves alike. -/
theorem transform_together :
    (∀ (s : Symmetry) (b : Board), b.length = 9 → ∃ t, s.transform b = .ok t
        ∧ (∀ i : Int, InRange 9 i → ∃ a : Nat, s.image i = .ok a ∧ a < 9
          ∧ (∃ p, entry .cells b i = .ok p ∧ entry .cells t a = .ok p)
          ∧ ∃ q, winnerThrough b i = .ok q ∧ winnerThrough t a = .ok q)
        ∧ (∃ images, b.legalMoves.mapM (fun cell : Nat => s.image cell) = .ok images
          ∧ t.legalMoves = images.mergeSort)
        ∧ ∃ p q, b.winner = .ok p ∧ t.winner = .ok q ∧ (q = Cell.empty ↔ p = Cell.empty)
          ∧ (b.OneOwner → q = p))
      ∧ ∀ k l : Symmetry, ∃! m : Symmetry,
        (∀ b : Board, b.length = 9 → ∃ t u, k.transform b = .ok t ∧ l.transform t = .ok u
          ∧ m.transform b = .ok u)
        ∧ ∀ i : Int, InRange 9 i → ∃ a c : Nat, k.image i = .ok a ∧ l.image a = .ok c
          ∧ m.image i = .ok c := by
  refine ⟨?_, ?_⟩
  · intro s b hb
    obtain ⟨t, ht, h⟩ := s.exists_carries hb
    obtain ⟨p, hp⟩ := (Board.ownerAmong_winner (Nat.le_of_eq hb.symm)).exists_ok
    obtain ⟨q, hq⟩ := (Board.ownerAmong_winner h.nine_le_right).exists_ok
    refine ⟨t, ht, fun i hi => h.exists_image hi, ⟨_, h.mapM_image, h.legalMoves_eq⟩,
      p, q, hp, hq, ?_, ?_⟩
    · simpa only [hp, hq, Except.ok.injEq] using h.winner_eq_empty_iff
    · intro hone
      simpa only [hp, hq, Except.ok.injEq] using h.winner_eq hone
  · intro k l
    obtain ⟨m, hm⟩ := Symmetry.exists_landing_trans k l
    refine ⟨m, ⟨?_, ?_⟩, ?_⟩
    · intro b hb
      obtain ⟨t, ht, h⟩ := k.exists_carries hb
      obtain ⟨u, hu, h'⟩ := l.exists_carries h.length_right
      exact ⟨t, u, ht, hu, (h.trans h' hm).transform_eq⟩
    · intro i hi
      obtain ⟨cell, hpos⟩ := (exists_position_iff .cells).mpr hi
      have hcell := (position_eq_ok_iff.mp hpos).1
      refine ⟨k.landing cell, l.landing (k.landing cell), k.image_of_position hpos,
        l.image_natCast (k.landing_lt hcell), ?_⟩
      rw [m.image_of_position hpos, hm cell hcell]
    · -- Another such symmetry takes every cell to the same place.
      rintro m' ⟨-, himage⟩
      refine Symmetry.eq_of_landing ?_
      intro cell hcell
      obtain ⟨a, c, ha, hc, hmc⟩ := himage cell ⟨by omega, by omega⟩
      obtain rfl := Except.ok.inj ((k.image_natCast hcell).symm.trans ha)
      obtain rfl := Except.ok.inj ((l.image_natCast (k.landing_lt hcell)).symm.trans hc)
      rw [hm cell hcell]
      exact Except.ok.inj ((m'.image_natCast hcell).symm.trans hmc)

/-- A quarter turn of a board on which a foreign piece owns a row and a column, a move in the corner
that is counted from the back, and the reflection that comes of the quarter turn and another one. -/
theorem transform_together_quarterTurn :
    ([7, 7, 7, 7, 1, 0, 7, 0, 2] : Board).length = 9 ∧ InRange 9 (-9)
      ∧ Board.OneOwner [7, 7, 7, 7, 1, 0, 7, 0, 2]
      ∧ (∃ t, Symmetry.quarterTurn.transform [7, 7, 7, 7, 1, 0, 7, 0, 2] = .ok t
        ∧ (∃ a : Nat, Symmetry.quarterTurn.image (-9) = .ok a ∧ a < 9
          ∧ (∃ p, entry .cells ([7, 7, 7, 7, 1, 0, 7, 0, 2] : Board) (-9) = .ok p
            ∧ entry .cells t a = .ok p)
          ∧ ∃ q, winnerThrough [7, 7, 7, 7, 1, 0, 7, 0, 2] (-9) = .ok q
            ∧ winnerThrough t a = .ok q)
        ∧ ∃ p q, Board.winner [7, 7, 7, 7, 1, 0, 7, 0, 2] = .ok p ∧ t.winner = .ok q ∧ q = p)
      ∧ ∃ m : Symmetry,
        (∃ t u, Symmetry.quarterTurn.transform [7, 7, 7, 7, 1, 0, 7, 0, 2] = .ok t
          ∧ Symmetry.flipRows.transform t = .ok u
          ∧ m.transform [7, 7, 7, 7, 1, 0, 7, 0, 2] = .ok u)
        ∧ ∃ a c : Nat, Symmetry.quarterTurn.image (-9) = .ok a
          ∧ Symmetry.flipRows.image a = .ok c ∧ m.image (-9) = .ok c := by
  have hrange : InRange 9 (-9) := ⟨by decide, by decide⟩
  have hone : Board.OneOwner [7, 7, 7, 7, 1, 0, 7, 0, 2] := by
    have hseven : ∀ l ∈ winningLines, ∀ p ∈ ([7, 7, 7, 7, 1, 0, 7, 0, 2] : Board),
        p ≠ Cell.empty → Board.Owns [7, 7, 7, 7, 1, 0, 7, 0, 2] p l → p = 7 := by decide
    have howner : ∀ l ∈ winningLines, ∀ p, p ≠ Cell.empty →
        Board.Owns [7, 7, 7, 7, 1, 0, 7, 0, 2] p l → p = 7 := by
      intro l hl p hp ho
      exact hseven l hl p (List.mem_of_getElem? (Board.owns_iff.mp ho).1) hp ho
    intro l₁ hl₁ l₂ hl₂ p q hp hq ho₁ ho₂
    rw [howner l₁ hl₁ p hp ho₁, howner l₂ hl₂ q hq ho₂]
  obtain ⟨t, ht, hcells, -, p, q, hp, hq, -, hsame⟩ :=
    transform_together.1 .quarterTurn [7, 7, 7, 7, 1, 0, 7, 0, 2] rfl
  obtain ⟨m, ⟨hboards, hmoves⟩, -⟩ := transform_together.2 .quarterTurn .flipRows
  exact ⟨rfl, hrange, hone, ⟨t, ht, hcells (-9) hrange, p, q, hp, hq, hsame hone⟩,
    m, hboards _ rfl, hmoves (-9) hrange⟩

/-- With two owners, the full scan names the one whose line comes first, before and after. -/
example : Board.winner [1, 1, 1, 0, 0, 0, 2, 2, 2] = .ok Cell.cross
    ∧ ∃ t, Symmetry.flipRows.transform [1, 1, 1, 0, 0, 0, 2, 2, 2] = .ok t
      ∧ t.winner = .ok Cell.nought :=
  ⟨rfl, _, rfl, rfl⟩

end Noughts
