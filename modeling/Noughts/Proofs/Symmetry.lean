import Noughts.Symmetry
import Noughts.Proofs.SearchTree
import Mathlib.Data.List.GetD
import Mathlib.Data.List.Nodup
import Mathlib.Data.List.Perm.Basic

/-!
# Boards that are images of one another

A symmetry moves a board along `Symmetry.source` and a move along the inverse map.  Here the two
are brought together: `Symmetry.landing` is where the piece of a cell goes, and
`s.Carries b t` says that `t` is `b` with all its pieces taken there.  The transformed board is
such a `t` (`Symmetry.exists_carries`), and playing corresponding moves on both keeps it one
(`Carries.set`).

Two boards that are images of one another have their empty cells at corresponding places
(`Carries.perm_openCells`), and since a symmetry carries the winning lines to winning lines, the
line test of a move gives the same answer on both (`Carries.winnerThrough_eq`).

Only the facts about the index maps themselves are found by going through the cells.
-/

set_option autoImplicit false

namespace Noughts

open Board (Line winningLines)
open scoped List

namespace Symmetry

/-! ## The index maps -/

/-- The cell on which the piece of `cell` lands, as a place from the front. -/
def landing (s : Symmetry) (cell : Nat) : Nat := s.sources.idxOf cell

variable (s : Symmetry)

theorem image_natCast {cell : Nat} (h : cell < 9) :
    s.image (cell : Int) = .ok (s.landing cell) := by
  rw [image, entry_natCast (by simpa [images] using h)]
  exact entryAt_of_getElem? (by simp [images, landing, h])

theorem landing_lt {cell : Nat} (h : cell < 9) : s.landing cell < 9 := by
  revert cell
  cases s <;> decide

theorem landing_inj {c d : Nat} (hc : c < 9) (hd : d < 9) (h : s.landing c = s.landing d) :
    c = d := by
  have hinj : ∀ c < 9, ∀ d < 9, s.landing c = s.landing d → c = d := by
    cases s <;> decide
  exact hinj c hc d hd h

theorem exists_landing {cell : Nat} (h : cell < 9) : ∃ c < 9, s.landing c = cell := by
  have hsurj : ∀ cell < 9, ∃ c < 9, s.landing c = cell := by
    cases s <;> decide
  exact hsurj cell h

/-- What lands on a cell comes from its source. -/
theorem sources_landing {cell : Nat} (h : cell < 9) :
    s.sources[s.landing cell]? = some cell := by
  have hsrc : ∀ cell < 9, s.sources[s.landing cell]? = some cell := by
    cases s <;> decide
  exact hsrc cell h

theorem sources_lt {cell : Nat} (h : cell ∈ s.sources) : cell < 9 := by
  have hlt : ∀ cell ∈ s.sources, cell < 9 := by
    cases s <;> decide
  exact hlt cell h

/-- A symmetry carries every winning line onto a winning line. -/
theorem line_landing {l : Line} (h : l ∈ winningLines) :
    ∃ l' ∈ winningLines, l'.cells.Perm (l.cells.map s.landing) := by
  have hline : ∀ l ∈ winningLines, ∃ l' ∈ winningLines,
      l'.cells.Perm (l.cells.map s.landing) := by
    cases s <;> decide
  exact hline l h

/-- Every winning line is the image of one. -/
theorem exists_line_landing {l' : Line} (h : l' ∈ winningLines) :
    ∃ l ∈ winningLines, l'.cells.Perm (l.cells.map s.landing) := by
  have hline : ∀ l' ∈ winningLines, ∃ l ∈ winningLines,
      l'.cells.Perm (l.cells.map s.landing) := by
    cases s <;> decide
  exact hline l' h

/-! ## Boards -/

/-- `t` is `b` with the piece of every cell carried to where it lands. -/
structure Carries (s : Symmetry) (b t : Board) : Prop where
  length_left : b.length = 9
  length_right : t.length = 9
  get : ∀ cell < 9, t[s.landing cell]? = b[cell]?

end Symmetry

/-- Steps that all succeed yield what each of them yields. -/
theorem mapM_eq_ok {α β : Type} {xs : List α} {f : α → Except Fault β} {g : α → β}
    (h : ∀ x ∈ xs, f x = .ok (g x)) : xs.mapM f = .ok (xs.map g) := by
  induction xs with
  | nil => rfl
  | cons x rest ih =>
    rw [List.mapM_cons, h x List.mem_cons_self, ih fun y hy => h y (List.mem_cons_of_mem _ hy)]
    rfl

theorem mapM_entryAt {b : Board} {cells : List Nat} (h : ∀ cell ∈ cells, cell < b.length) :
    cells.mapM (fun cell => entryAt .cells b cell)
      = .ok (cells.map fun cell => b.getD cell Cell.empty) := by
  refine mapM_eq_ok fun cell hcell => ?_
  rw [entryAt_of_getElem? (List.getElem?_eq_getElem (h cell hcell)), List.getD_eq_getElem]

namespace Symmetry

/-- **The transformed board has every piece where it lands.** -/
theorem exists_carries (s : Symmetry) {b : Board} (hb : b.length = 9) :
    ∃ t, s.transform b = .ok t ∧ s.Carries b t := by
  refine ⟨_, mapM_entryAt fun cell hcell => by rw [hb]; exact s.sources_lt hcell, hb, ?_, ?_⟩
  · simp [sources]
  · intro cell hcell
    rw [List.getElem?_map, s.sources_landing hcell, Option.map_some,
      List.getD_eq_getElem _ _ (by omega), List.getElem?_eq_getElem (by omega)]

namespace Carries

variable {s : Symmetry} {b t : Board} {cell : Nat}

theorem nine_le_left (h : s.Carries b t) : 9 ≤ b.length :=
  Nat.le_of_eq h.length_left.symm

theorem nine_le_right (h : s.Carries b t) : 9 ≤ t.length :=
  Nat.le_of_eq h.length_right.symm

/-- Corresponding moves keep the boards images of one another. -/
theorem set (h : s.Carries b t) (hcell : cell < 9) (p : Cell) :
    s.Carries (b.set cell p) (t.set (s.landing cell) p) := by
  refine ⟨by rw [List.length_set, h.length_left], by rw [List.length_set, h.length_right], ?_⟩
  intro c hc
  by_cases he : cell = c
  · subst he
    rw [List.getElem?_set_self (by rw [h.length_right]; exact s.landing_lt hcell),
      List.getElem?_set_self (by rw [h.length_left]; exact hcell)]
  · rw [List.getElem?_set_ne he, List.getElem?_set_ne fun hl => he (s.landing_inj hcell hc hl),
      h.get c hc]

theorem after (h : s.Carries b t) (hcell : cell < 9) (depth : Int) :
    s.Carries (after b depth cell) (after t depth (s.landing cell)) :=
  h.set hcell _

/-- The image has the same pieces, in some order. -/
theorem perm (h : s.Carries b t) : t.Perm b := by
  have hread : ∀ b : Board, b.length = 9 → b = (List.range 9).map fun c => b.getD c Cell.empty := by
    intro b hb
    refine List.ext_getElem (by simp [hb]) fun c hc _ => ?_
    rw [List.getElem_map, List.getElem_range, List.getD_eq_getElem _ _ hc]
  have hcells : (List.range 9).Perm ((List.range 9).map s.landing) := by
    cases s <;> decide
  calc t = (List.range 9).map fun c => t.getD c Cell.empty := hread t h.length_right
    _ ~ ((List.range 9).map s.landing).map fun c => t.getD c Cell.empty := hcells.map _
    _ = (List.range 9).map fun c => b.getD c Cell.empty := by
      rw [List.map_map]
      refine List.map_congr_left fun c hc => ?_
      rw [Function.comp_apply, List.getD_eq_getElem?_getD, List.getD_eq_getElem?_getD,
        h.get c (List.mem_range.mp hc)]
    _ = b := (hread b h.length_left).symm

theorem room_eq (h : s.Carries b t) : room t = room b := by
  rw [room, room, List.take_of_length_le (Nat.le_of_eq h.length_right),
    List.take_of_length_le (Nat.le_of_eq h.length_left), h.perm.count_eq]

/-- The empty cells of the image are the images of the empty cells, in some order. -/
theorem perm_openCells (h : s.Carries b t) :
    (openCells t).Perm ((openCells b).map s.landing) := by
  have hnd : ∀ b : Board, (openCells b).Nodup := fun b =>
    List.Nodup.filter _ (by decide)
  refine (List.perm_ext_iff_of_nodup (hnd t) ?_).mpr fun cell => ?_
  · refine List.Nodup.map_on (fun c hc d hd hl => ?_) (hnd b)
    exact s.landing_inj (mem_openCells.mp hc).1 (mem_openCells.mp hd).1 hl
  · rw [mem_openCells, List.mem_map]
    constructor
    · rintro ⟨hlt, hget⟩
      obtain ⟨c, hc, rfl⟩ := s.exists_landing hlt
      exact ⟨c, mem_openCells.mpr ⟨hc, by rw [← h.get c hc, hget]⟩, rfl⟩
    · rintro ⟨c, hc, rfl⟩
      obtain ⟨hc, hget⟩ := mem_openCells.mp hc
      exact ⟨s.landing_lt hc, by rw [h.get c hc, hget]⟩

/-- A line and its image have the same owner. -/
theorem owns_iff (h : s.Carries b t) {l l' : Line} (hl : l ∈ winningLines)
    (hp : l'.cells.Perm (l.cells.map s.landing)) (p : Cell) : t.Owns p l' ↔ b.Owns p l := by
  constructor
  · intro ho c hc
    rw [← h.get c (Board.lt_of_mem_cells hl hc)]
    exact ho _ (hp.mem_iff.mpr (List.mem_map_of_mem hc))
  · intro ho c' hc'
    obtain ⟨c, hc, rfl⟩ := List.mem_map.mp (hp.mem_iff.mp hc')
    rw [h.get c (Board.lt_of_mem_cells hl hc), ho c hc]

/-- The lines through a cell are carried to the lines through its image. -/
theorem exists_owns_iff (h : s.Carries b t) (hcell : cell < 9) (p : Cell) :
    (∃ l ∈ Board.linesAt (s.landing cell), t.Owns p l)
      ↔ ∃ l ∈ Board.linesAt cell, b.Owns p l := by
  constructor
  · rintro ⟨l', hl', ho⟩
    obtain ⟨hl', hmem⟩ := Board.mem_linesAt.mp hl'
    obtain ⟨l, hl, hp⟩ := s.exists_line_landing hl'
    obtain ⟨c, hc, hland⟩ := List.mem_map.mp (hp.mem_iff.mp hmem)
    obtain rfl := s.landing_inj (Board.lt_of_mem_cells hl hc) hcell hland
    exact ⟨l, Board.mem_linesAt.mpr ⟨hl, hc⟩, (h.owns_iff hl hp p).mp ho⟩
  · rintro ⟨l, hl, ho⟩
    obtain ⟨hl, hmem⟩ := Board.mem_linesAt.mp hl
    obtain ⟨l', hl', hp⟩ := s.line_landing hl
    exact ⟨l', Board.mem_linesAt.mpr ⟨hl', hp.mem_iff.mpr (List.mem_map_of_mem hmem)⟩,
      (h.owns_iff hl hp p).mpr ho⟩

/-- **The line test of a move gives the same answer on the image.** -/
theorem winnerThrough_eq (h : s.Carries b t) (hcell : cell < 9) :
    winnerThrough t (s.landing cell : Nat) = winnerThrough b (cell : Nat) := by
  have hland := s.landing_lt hcell
  obtain ⟨c, hget⟩ : ∃ c, t[s.landing cell]? = some c :=
    exists_getElem? (by rw [h.length_right]; exact hland)
  refine (ownerAmong_winnerThrough h.nine_le_right hland).eq_of_owns_iff
    (ownerAmong_winnerThrough h.nine_le_left hcell)
    (fun p _ => h.exists_owns_iff hcell p) fun l₁ hl₁ l₂ hl₂ p q _ _ ho₁ ho₂ => ?_
  rw [ho₁.eq_of_mem_linesAt hl₁ hget, ho₂.eq_of_mem_linesAt hl₂ hget]

end Carries

end Symmetry

end Noughts
