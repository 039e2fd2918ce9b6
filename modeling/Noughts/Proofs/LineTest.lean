import Noughts.Proofs.Faults

/-!
# The line test against the full scan

The line test of a move looks at the lines through one cell, and the full scan looks at all eight.
Either answers with the owner of the first line that it finds, each in an order of its own, so where
two different pieces own a line the two can disagree.  What the line test relies on is that nobody
owned a line before the move: a line that is owned then passes through the cell of the move
(`Board.mem_linesAt_of_owned`), and all such lines have the same owner, the piece on that cell.
Nothing is asked of the pieces, which may be foreign ones.

* `Board.winner_eq_empty_iff`, `winnerThrough_eq_empty_iff`: each test comes back empty just if
  nobody owns one of the lines that it looks at.
* `winnerThrough_eq_winner`: the two agree on a move that nobody's line precedes.
* `winnerThrough_agrees`: both of these, what the line test answers without that condition, and that
  it does not matter from which end the cells of a board with nine cells are counted.
-/

set_option autoImplicit false

namespace Noughts

open Board (Line winningLines)

variable {b : Board} {cell : Nat} {p : Cell} {l : Line}

namespace Board

/-- Some piece owns the line. -/
def Owned (b : Board) (l : Line) : Prop :=
  ∃ p, p ≠ Cell.empty ∧ b.Owns p l

/-- A test answers with the empty cell just if nobody owns one of its lines. -/
theorem OwnerAmong.eq_empty_iff {lines : List Line} {e : Except Fault Cell}
    (h : b.OwnerAmong lines e) : e = .ok Cell.empty ↔ ∀ l ∈ lines, ¬ b.Owned l := by
  constructor
  · rintro rfl l hl ⟨p, hp, ho⟩
    exact h.not_owns hl hp ho
  · intro hn
    rcases h with ⟨p, hp, _, l, hl, ho⟩ | ⟨he, _⟩
    · exact absurd ⟨p, hp, ho⟩ (hn l hl)
    · exact he

theorem winner_eq_empty_iff (hb : 9 ≤ b.length) :
    b.winner = .ok Cell.empty ↔ ∀ l ∈ winningLines, ¬ b.Owned l :=
  (ownerAmong_winner hb).eq_empty_iff

/-- What happens on another cell does not concern a line. -/
theorem Owns.set_of_not_mem (ho : b.Owns p l) (hn : cell ∉ l.cells) (c : Cell) :
    Owns (b.set cell c) p l := by
  intro d hd
  have hne : cell ≠ d := fun he => hn (he ▸ hd)
  rw [List.getElem?_set_ne hne, ho d hd]

/-- If nobody owned a line before a piece came to its cell, every line that is owned passes through
that cell. -/
theorem mem_linesAt_of_owned (hb : 9 ≤ b.length)
    (hfresh : winner (b.set cell Cell.empty) = .ok Cell.empty) (hl : l ∈ winningLines)
    (ho : b.Owned l) : l ∈ linesAt cell := by
  refine mem_linesAt.mpr ⟨hl, Decidable.byContradiction fun hn => ?_⟩
  obtain ⟨p, hp, ho⟩ := ho
  have hlen : 9 ≤ (b.set cell Cell.empty).length := by rwa [List.length_set]
  exact (winner_eq_empty_iff hlen).mp hfresh l hl ⟨p, hp, ho.set_of_not_mem hn Cell.empty⟩

end Board

/-! ## What the line test answers -/

theorem winnerThrough_eq_empty_iff (hb : 9 ≤ b.length) (h : cell < 9) :
    winnerThrough b cell = .ok Cell.empty ↔ ∀ l ∈ Board.linesAt cell, ¬ b.Owned l :=
  (ownerAmong_winnerThrough hb h).eq_empty_iff

/-- The owner that the line test names is the piece of the move. -/
theorem winnerThrough_of_owned (hb : 9 ≤ b.length) (h : cell < 9) (hp : b[cell]? = some p)
    (hl : l ∈ Board.linesAt cell) (ho : b.Owned l) : winnerThrough b cell = .ok p := by
  rcases ownerAmong_winnerThrough hb h with ⟨q, _, he, l', hl', ho'⟩ | ⟨he, _⟩
  · rw [he, ho'.eq_of_mem_linesAt hl' hp]
  · exact absurd ho ((winnerThrough_eq_empty_iff hb h).mp he l hl)

/-- **On a move before which nobody owned a line, the line test agrees with the full scan.** -/
theorem winnerThrough_eq_winner (hb : 9 ≤ b.length) (h : cell < 9)
    (hfresh : Board.winner (b.set cell Cell.empty) = .ok Cell.empty) :
    winnerThrough b cell = b.winner := by
  obtain ⟨c, hget⟩ := exists_getElem? (Nat.lt_of_lt_of_le h hb)
  refine (ownerAmong_winnerThrough hb h).eq_of_owns_iff (Board.ownerAmong_winner hb)
    (fun p hp => ⟨?_, ?_⟩) fun l₁ hl₁ l₂ hl₂ p q _ _ ho₁ ho₂ => ?_
  · rintro ⟨l, hl, ho⟩
    exact ⟨l, (Board.mem_linesAt.mp hl).1, ho⟩
  · rintro ⟨l, hl, ho⟩
    exact ⟨l, Board.mem_linesAt_of_owned hb hfresh hl ⟨p, hp, ho⟩, ho⟩
  · rw [ho₁.eq_of_mem_linesAt hl₁ hget, ho₂.eq_of_mem_linesAt hl₂ hget]

/-- The full scan comes back empty just if the line tests of all nine cells do: every line passes
through some cell. -/
theorem winner_eq_empty_iff_through (hb : 9 ≤ b.length) :
    b.winner = .ok Cell.empty ↔ ∀ cell < 9, winnerThrough b (cell : Nat) = .ok Cell.empty := by
  rw [Board.winner_eq_empty_iff hb]
  constructor
  · intro hn cell hcell
    exact (winnerThrough_eq_empty_iff hb hcell).mpr fun l hl => hn l (Board.mem_linesAt.mp hl).1
  · intro hn l hl
    have hfirst : l.first ∈ l.cells := by simp [Line.cells]
    have hcell := Board.lt_of_mem_cells hl hfirst
    exact (winnerThrough_eq_empty_iff hb hcell).mp (hn l.first hcell) l
      (Board.mem_linesAt.mpr ⟨hl, hfirst⟩)

/-! ## Counting from the back -/

/-- An entry has the same place from the back, the size of the table further down. -/
theorem entry_sub_length {α : Type} (table : Table) {xs : List α} {k : Nat} (h : k < xs.length) :
    entry table xs ((k : Int) - xs.length) = entry table xs k := by
  have hback : position table xs.length ((k : Int) - xs.length) = .ok k :=
    position_eq_ok_iff.mpr ⟨h, Or.inr rfl⟩
  rw [entry, entry, hback, position_natCast h]

/-- On nine cells the board and the table of lines are of one size, so the line test may count from
the back. -/
theorem winnerThrough_sub_nine (hb : b.length = 9) (h : cell < 9) :
    winnerThrough b ((cell : Int) - 9) = winnerThrough b cell := by
  have hcells : entry .cells b ((cell : Int) - 9) = entry .cells b cell := by
    have hback := entry_sub_length .cells (hb ▸ h)
    rwa [hb] at hback
  have hlines : entry .lines linesThrough ((cell : Int) - 9) = entry .lines linesThrough cell :=
    entry_sub_length .lines h
  rw [winnerThrough, winnerThrough, hcells, hlines]

/-- However the cell is counted, the line test is that of its place from the front. -/
theorem winnerThrough_of_position (hb : b.length = 9) {i : Int}
    (h : position .cells 9 i = .ok cell) : winnerThrough b i = winnerThrough b cell := by
  obtain ⟨hcell, rfl | rfl⟩ := position_eq_ok_iff.mp h
  · rfl
  · exact winnerThrough_sub_nine hb hcell

/-! ## Conclusion -/

/-- **The line test of a move against the full scan**, on a board that has its nine cells and any
pieces on them.  They agree on a move before which nobody owned a line.  Whatever there was before,
the line test answers with the piece of the move if somebody owns a line through its cell and with
the empty cell if nobody does, and the full scan comes back empty just if all nine line tests do. -/
theorem winnerThrough_agrees (hb : 9 ≤ b.length) :
    (∀ cell : Nat, cell < 9 →
      (Board.winner (b.set cell Cell.empty) = .ok Cell.empty → winnerThrough b cell = b.winner)
        ∧ (∃ p, b[cell]? = some p
          ∧ ((∃ l ∈ winningLines, cell ∈ l.cells ∧ b.Owned l) → winnerThrough b cell = .ok p)
          ∧ ((¬ ∃ l ∈ winningLines, cell ∈ l.cells ∧ b.Owned l) →
            winnerThrough b cell = .ok Cell.empty))
        ∧ (b.length = 9 → winnerThrough b ((cell : Int) - 9) = winnerThrough b cell))
      ∧ (b.winner = .ok Cell.empty ↔
        ∀ cell : Nat, cell < 9 → winnerThrough b cell = .ok Cell.empty) := by
  refine ⟨fun cell h => ⟨winnerThrough_eq_winner hb h, ?_, fun hlen => winnerThrough_sub_nine hlen h⟩,
    winner_eq_empty_iff_through hb⟩
  obtain ⟨p, hp⟩ := exists_getElem? (Nat.lt_of_lt_of_le h hb)
  refine ⟨p, hp, ?_, fun hn => (winnerThrough_eq_empty_iff hb h).mpr fun l hl ho => ?_⟩
  · rintro ⟨l, hl, hmem, ho⟩
    exact winnerThrough_of_owned hb h hp (Board.mem_linesAt.mpr ⟨hl, hmem⟩) ho
  · obtain ⟨hl, hmem⟩ := Board.mem_linesAt.mp hl
    exact hn ⟨l, hl, hmem, ho⟩

/-- Foreign pieces that fill the top row with the move on cell `1`, where nobody owned a line before
it.  Nobody owns a line through the centre, and cell `1` has the same test from the back. -/
theorem winnerThrough_agrees_foreign :
    9 ≤ ([7, 7, 7, 0, -1, 0, -1, 0, 1] : Board).length
      ∧ ([7, 7, 7, 0, -1, 0, -1, 0, 1] : Board).length = 9 ∧ 1 < 9 ∧ 4 < 9
      ∧ Board.winner (List.set [7, 7, 7, 0, -1, 0, -1, 0, 1] 1 Cell.empty) = .ok Cell.empty
      ∧ (∃ l ∈ winningLines, 1 ∈ l.cells ∧ Board.Owned [7, 7, 7, 0, -1, 0, -1, 0, 1] l)
      ∧ (¬ ∃ l ∈ winningLines, 4 ∈ l.cells ∧ Board.Owned [7, 7, 7, 0, -1, 0, -1, 0, 1] l)
      ∧ winnerThrough [7, 7, 7, 0, -1, 0, -1, 0, 1] (1 : Nat)
        = Board.winner [7, 7, 7, 0, -1, 0, -1, 0, 1]
      ∧ winnerThrough [7, 7, 7, 0, -1, 0, -1, 0, 1] (1 : Nat) = .ok 7
      ∧ winnerThrough [7, 7, 7, 0, -1, 0, -1, 0, 1] (4 : Nat) = .ok Cell.empty
      ∧ winnerThrough [7, 7, 7, 0, -1, 0, -1, 0, 1] ((1 : Nat) - 9)
        = winnerThrough [7, 7, 7, 0, -1, 0, -1, 0, 1] (1 : Nat) := by
  have hfresh : Board.winner (List.set [7, 7, 7, 0, -1, 0, -1, 0, 1] 1 Cell.empty)
      = .ok Cell.empty := rfl
  have howned : ∃ l ∈ winningLines, 1 ∈ l.cells ∧ Board.Owned [7, 7, 7, 0, -1, 0, -1, 0, 1] l :=
    ⟨⟨0, 1, 2⟩, by decide, by decide, 7, by decide, by decide⟩
  have hfree : ¬ ∃ l ∈ winningLines, 4 ∈ l.cells
      ∧ Board.Owned [7, 7, 7, 0, -1, 0, -1, 0, 1] l := by
    rintro ⟨l, hl, hmem, ho⟩
    exact (winnerThrough_eq_empty_iff (by decide) (by decide)).mp rfl l
      (Board.mem_linesAt.mpr ⟨hl, hmem⟩) ho
  have hagrees := @winnerThrough_agrees [7, 7, 7, 0, -1, 0, -1, 0, 1] (by decide)
  obtain ⟨hscan, ⟨p, hp, hsome, -⟩, hback⟩ := hagrees.1 1 (by decide)
  obtain ⟨-, ⟨q, -, -, hnone⟩, -⟩ := hagrees.1 4 (by decide)
  cases hp
  exact ⟨by decide, rfl, by decide, by decide, hfresh, howned, hfree, hscan hfresh, hsome howned,
    hnone hfree, hback rfl⟩

/-- Where two pieces own a line, the test of a move names the piece of the move, and the full scan
the owner of the line that comes first. -/
example : winnerThrough [1, 1, 1, 2, 2, 2, 0, 0, 0] 4 = .ok Cell.nought
    ∧ Board.winner [1, 1, 1, 2, 2, 2, 0, 0, 0] = .ok Cell.cross :=
  ⟨rfl, rfl⟩

end Noughts
