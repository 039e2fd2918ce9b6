import Noughts.Search

/-!
# Who owns a line

The two line tests read cells one at a time and give up as early as they can.  Here is what they
come to on a board that has all nine cells, where neither of them can meet a fault.

A piece *owns* a line when it stands on all three of its cells (`Board.Owns`).  A test that was run
over some lines should answer with a piece other than the empty cell that owns one of them, and
with the empty cell if there is no such piece; that is `Board.OwnerAmong`.

* `Board.ownerAmong_winner`: the full scan is such a test, over all eight lines.
* `ownerAmong_winnerThrough`: the test of one move is such a test, over the lines through its cell.
* `verdict_natCast`: so a call of the search on one of the nine cells never ends in a fault.
-/

set_option autoImplicit false

namespace Noughts

open Board (Line winningLines)

/-! ## Reading in range -/

theorem exists_getElem? {α : Type} {xs : List α} {k : Nat} (h : k < xs.length) :
    ∃ a, xs[k]? = some a :=
  ⟨_, List.getElem?_eq_getElem h⟩

theorem entryAt_of_getElem? {α : Type} {table : Table} {xs : List α} {k : Nat} {a : α}
    (h : xs[k]? = some a) : entryAt table xs k = .ok a := by
  rw [entryAt, h]

/-- A place counted from the front is found as it is. -/
theorem position_natCast {table : Table} {size k : Nat} (h : k < size) :
    position table size (k : Int) = .ok k := by
  have hk : (k : Int) < (size : Int) := by omega
  simp [position, position?, hk]

theorem entry_natCast {α : Type} {table : Table} {xs : List α} {k : Nat} (h : k < xs.length) :
    entry table xs (k : Int) = entryAt table xs k := by
  rw [entry, position_natCast h]

/-! ## Owners -/

namespace Board

/-- The three cells of a line. -/
def Line.cells (l : Line) : List Nat := [l.first, l.second, l.third]

/-- A winning line lies on the nine cells. -/
theorem lt_of_mem_cells {l : Line} (hl : l ∈ winningLines) {c : Nat} (hc : c ∈ l.cells) :
    c < 9 := by
  have h : ∀ l ∈ winningLines, ∀ c ∈ l.cells, c < 9 := by decide
  exact h l hl c hc

/-- `p` stands on all three cells of the line. -/
def Owns (b : Board) (p : Cell) (l : Line) : Prop :=
  ∀ c ∈ l.cells, b[c]? = some p

instance (b : Board) (p : Cell) (l : Line) : Decidable (b.Owns p l) :=
  inferInstanceAs (Decidable (∀ c ∈ l.cells, b[c]? = some p))

theorem owns_iff {b : Board} {p : Cell} {l : Line} :
    b.Owns p l ↔ b[l.first]? = some p ∧ b[l.second]? = some p ∧ b[l.third]? = some p := by
  simp [Owns, Line.cells]

/-- `e` answers which piece owns one of the lines: such a piece, or the empty cell if there is
none. -/
def OwnerAmong (b : Board) (lines : List Line) (e : Except Fault Cell) : Prop :=
  (∃ p, p ≠ Cell.empty ∧ e = .ok p ∧ ∃ l ∈ lines, b.Owns p l)
    ∨ (e = .ok Cell.empty ∧ ∀ l ∈ lines, ∀ p, p ≠ Cell.empty → ¬ b.Owns p l)

/-- The answer of a test that names a single candidate, if it owns a line. -/
theorem OwnerAmong.of_candidate {b : Board} {lines : List Line} {p : Cell} {P : Prop} [Decidable P]
    (hP : P ↔ ∃ l ∈ lines, b.Owns p l) (honly : ∀ l ∈ lines, ∀ q, b.Owns q l → q = p) :
    b.OwnerAmong lines (.ok (if P then p else Cell.empty)) := by
  by_cases hown : p ≠ Cell.empty ∧ P
  · exact Or.inl ⟨p, hown.1, by rw [if_pos hown.2], hP.mp hown.2⟩
  · refine Or.inr ⟨?_, fun l hl q hq ho => ?_⟩
    · -- The candidate owns no line, or it is the empty cell itself.
      split
      · next he =>
        have hempty : p = Cell.empty := Decidable.not_not.mp fun hne => hown ⟨hne, he⟩
        rw [hempty]
      · rfl
    · obtain rfl := honly l hl q ho
      exact hown ⟨hq, hP.mpr ⟨l, hl, ho⟩⟩

/-- When the answer is the empty cell nobody owns a line. -/
theorem OwnerAmong.not_owns {b : Board} {lines : List Line}
    (h : b.OwnerAmong lines (.ok Cell.empty)) {l : Line} (hl : l ∈ lines) {p : Cell}
    (hp : p ≠ Cell.empty) : ¬ b.Owns p l := by
  rcases h with ⟨q, hq, he, _⟩ | ⟨_, hn⟩
  · cases he
    exact absurd rfl hq
  · exact hn l hl p hp

theorem OwnerAmong.exists_ok {b : Board} {lines : List Line} {e : Except Fault Cell}
    (h : b.OwnerAmong lines e) : ∃ p, e = .ok p := by
  rcases h with ⟨p, _, he, _⟩ | ⟨he, _⟩
  · exact ⟨p, he⟩
  · exact ⟨Cell.empty, he⟩

/-- Two tests whose lines have the same owners, and no more than one, give the same answer. -/
theorem OwnerAmong.eq_of_owns_iff {b b' : Board} {lines lines' : List Line}
    {e e' : Except Fault Cell} (h : b.OwnerAmong lines e) (h' : b'.OwnerAmong lines' e')
    (hiff : ∀ p, p ≠ Cell.empty → ((∃ l ∈ lines, b.Owns p l) ↔ ∃ l ∈ lines', b'.Owns p l))
    (huniq : ∀ l₁ ∈ lines, ∀ l₂ ∈ lines, ∀ p q, p ≠ Cell.empty → q ≠ Cell.empty →
      b.Owns p l₁ → b.Owns q l₂ → p = q) : e = e' := by
  rcases h with ⟨p, hp, rfl, l₁, hl₁, ho₁⟩ | ⟨rfl, hn⟩
  · rcases h' with ⟨q, hq, rfl, hl'⟩ | ⟨rfl, hn'⟩
    · obtain ⟨l₂, hl₂, ho₂⟩ := (hiff q hq).mpr hl'
      rw [huniq l₁ hl₁ l₂ hl₂ p q hp hq ho₁ ho₂]
    · obtain ⟨l', hl', ho'⟩ := (hiff p hp).mp ⟨l₁, hl₁, ho₁⟩
      exact absurd ho' (hn' l' hl' p hp)
  · rcases h' with ⟨q, hq, rfl, hl'⟩ | ⟨rfl, _⟩
    · obtain ⟨l, hl, ho⟩ := (hiff q hq).mpr hl'
      exact absurd ho (hn l hl q hq)
    · rfl

/-! ## The full scan -/

theorem ownerOf_of_getElem? {b : Board} {l : Line} {p q r : Cell} (hp : b[l.first]? = some p)
    (hq : b[l.second]? = some q) (hr : b[l.third]? = some r) :
    b.ownerOf l = .ok (if p = q ∧ p = r then p else Cell.empty) := by
  rw [ownerOf, entryAt_of_getElem? hp, entryAt_of_getElem? hq, entryAt_of_getElem? hr]
  simp only [bind, Except.bind, pure, Except.pure]
  split
  · next he => subst he; split <;> rfl
  · by_cases hpq : p = q <;> simp [hpq]

/-- Looking at one line is a test over that line. -/
theorem ownerAmong_ownerOf {b : Board} {l : Line} (hl : ∀ c ∈ l.cells, c < b.length) :
    b.OwnerAmong [l] (b.ownerOf l) := by
  obtain ⟨p, hp⟩ := exists_getElem? (hl l.first (by simp [Line.cells]))
  obtain ⟨q, hq⟩ := exists_getElem? (hl l.second (by simp [Line.cells]))
  obtain ⟨r, hr⟩ := exists_getElem? (hl l.third (by simp [Line.cells]))
  rw [ownerOf_of_getElem? hp hq hr]
  have howns : ∀ s, b.Owns s l ↔ p = s ∧ q = s ∧ r = s := by
    intro s
    rw [owns_iff, hp, hq, hr, Option.some_inj, Option.some_inj, Option.some_inj]
  refine OwnerAmong.of_candidate ⟨?_, ?_⟩ ?_
  · rintro ⟨rfl, rfl⟩
    exact ⟨l, List.mem_singleton_self l, (howns p).mpr ⟨rfl, rfl, rfl⟩⟩
  · rintro ⟨l', hl', ho⟩
    rw [List.mem_singleton.mp hl'] at ho
    obtain ⟨-, rfl, rfl⟩ := (howns p).mp ho
    exact ⟨rfl, rfl⟩
  · intro l' hl' s ho
    rw [List.mem_singleton.mp hl'] at ho
    exact ((howns s).mp ho).1.symm

theorem ownerAmong_winnerAmong {b : Board} {lines : List Line}
    (h : ∀ l ∈ lines, ∀ c ∈ l.cells, c < b.length) :
    b.OwnerAmong lines (b.winnerAmong lines) := by
  induction lines with
  | nil => exact Or.inr ⟨rfl, by simp⟩
  | cons l rest ih =>
    have ih := ih fun l' hl' => h l' (List.mem_cons_of_mem _ hl')
    rw [winnerAmong]
    rcases ownerAmong_ownerOf (h l List.mem_cons_self) with ⟨p, hp, he, l', hl', ho⟩ | ⟨he, hn⟩
    · rw [List.mem_singleton] at hl'
      subst hl'
      refine Or.inl ⟨p, hp, ?_, l', List.mem_cons_self, ho⟩
      simp [he, hp, bind, Except.bind, pure, Except.pure]
    · simp only [he, bind, Except.bind, ne_eq, not_true_eq_false, if_false]
      rcases ih with ⟨p, hp, hw, l', hl', ho⟩ | ⟨hw, hrest⟩
      · exact Or.inl ⟨p, hp, hw, l', List.mem_cons_of_mem _ hl', ho⟩
      · refine Or.inr ⟨hw, fun l' hl' => ?_⟩
        rcases List.mem_cons.mp hl' with rfl | hl'
        · exact hn l' List.mem_cons_self
        · exact hrest l' hl'

/-- **The full scan finds the owner of a line.** -/
theorem ownerAmong_winner {b : Board} (hb : 9 ≤ b.length) :
    b.OwnerAmong winningLines b.winner :=
  ownerAmong_winnerAmong fun _ hl _ hc => Nat.lt_of_lt_of_le (lt_of_mem_cells hl hc) hb

/-! ## The test of one move -/

/-- The winning lines through a cell. -/
def linesAt (cell : Nat) : List Line :=
  winningLines.filter fun l => decide (cell ∈ l.cells)

theorem mem_linesAt {l : Line} {cell : Nat} :
    l ∈ linesAt cell ↔ l ∈ winningLines ∧ cell ∈ l.cells := by
  rw [linesAt, List.mem_filter, decide_eq_true_eq]

/-- The piece on a cell is the only one that can own a line through it. -/
theorem Owns.eq_of_mem_linesAt {b : Board} {p c : Cell} {l : Line} {cell : Nat}
    (ho : b.Owns p l) (hl : l ∈ linesAt cell) (hc : b[cell]? = some c) : p = c :=
  Option.some.inj ((ho cell (mem_linesAt.mp hl).2).symm.trans hc)

/-- The other two cells of a line through a cell make up the line with it. -/
theorem owns_of_others? {b : Board} {p : Cell} {l : Line} {cell i j : Nat}
    (h : l.others? cell = some (i, j)) (hp : b[cell]? = some p) :
    b.Owns p l ↔ b[i]? = some p ∧ b[j]? = some p := by
  rw [owns_iff]
  rw [Line.others?] at h
  split at h
  · next hc => cases h; subst hc; simp [hp]
  · split at h
    · next hc => cases h; subst hc; simp [hp]
    · split at h
      · next hc => cases h; subst hc; simp [hp]
      · cases h

theorem others?_eq_none {l : Line} {cell : Nat} : l.others? cell = none ↔ cell ∉ l.cells := by
  have hmem : cell ∈ l.cells ↔ l.first = cell ∨ l.second = cell ∨ l.third = cell := by
    simp [Line.cells, eq_comm]
  rw [hmem, Line.others?]
  split
  · next h1 => simp [h1]
  · next h1 =>
    split
    · next h2 => simp [h2]
    · next h2 =>
      split
      · next h3 => simp [h3]
      · next h3 => simp [h1, h2, h3]

end Board

theorem completes_eq {b : Board} {p : Cell} {pairs : List (Nat × Nat)}
    (h : ∀ ij ∈ pairs, ij.1 < b.length ∧ ij.2 < b.length) :
    completes b p pairs =
      .ok (if ∃ ij ∈ pairs, b[ij.1]? = some p ∧ b[ij.2]? = some p then p else Cell.empty) := by
  induction pairs with
  | nil => simp [completes]
  | cons ij rest ih =>
    obtain ⟨i, j⟩ := ij
    obtain ⟨q, hq⟩ := exists_getElem? (h (i, j) List.mem_cons_self).1
    obtain ⟨r, hr⟩ := exists_getElem? (h (i, j) List.mem_cons_self).2
    have ih := ih fun kl hkl => h kl (List.mem_cons_of_mem _ hkl)
    rw [completes, entryAt_of_getElem? hq, entryAt_of_getElem? hr]
    simp only [ih, List.mem_cons, exists_eq_or_imp, hq, hr, Option.some_inj]
    by_cases hpq : p = q
    · by_cases hpr : p = r
      · rw [if_pos hpq, if_pos hpr, if_pos (Or.inl ⟨hpq.symm, hpr.symm⟩)]
      · have hno : ¬ (q = p ∧ r = p) := fun hc => hpr hc.2.symm
        rw [if_pos hpq, if_neg hpr]
        simp only [hno, false_or]
    · have hno : ¬ (q = p ∧ r = p) := fun hc => hpq hc.1.symm
      rw [if_neg hpq]
      simp only [hno, false_or]

theorem pairsThrough_exists {b : Board} {p : Cell} {cell : Nat} (hp : b[cell]? = some p) :
    (∃ ij ∈ pairsThrough cell, b[ij.1]? = some p ∧ b[ij.2]? = some p)
      ↔ ∃ l ∈ Board.linesAt cell, b.Owns p l := by
  simp only [pairsThrough, List.mem_filterMap]
  constructor
  · rintro ⟨⟨i, j⟩, ⟨l, hl, ho⟩, hij⟩
    have hmem : cell ∈ l.cells := Decidable.byContradiction fun hn => by
      rw [Board.others?_eq_none.mpr hn] at ho
      cases ho
    exact ⟨l, Board.mem_linesAt.mpr ⟨hl, hmem⟩, (Board.owns_of_others? ho hp).mpr hij⟩
  · rintro ⟨l, hl, ho⟩
    obtain ⟨hl, hmem⟩ := Board.mem_linesAt.mp hl
    cases hij : l.others? cell with
    | none => exact absurd hmem (Board.others?_eq_none.mp hij)
    | some ij => exact ⟨ij, ⟨l, hl, hij⟩, (Board.owns_of_others? hij hp).mp ho⟩

theorem pairsThrough_lt {cell : Nat} (h : cell < 9) :
    ∀ ij ∈ pairsThrough cell, ij.1 < 9 ∧ ij.2 < 9 := by
  revert cell
  decide

/-- The test of one move, on a board where it cannot fault. -/
theorem winnerThrough_natCast {b : Board} (hb : 9 ≤ b.length) {cell : Nat} (h : cell < 9)
    {p : Cell} (hp : b[cell]? = some p) :
    winnerThrough b (cell : Int) = .ok (if ∃ ij ∈ pairsThrough cell,
      b[ij.1]? = some p ∧ b[ij.2]? = some p then p else Cell.empty) := by
  have hrow : linesThrough[cell]? = some (pairsThrough cell) := by
    simp [linesThrough, h]
  rw [winnerThrough, entry_natCast (by omega), entryAt_of_getElem? hp,
    entry_natCast (by simpa [linesThrough] using h), entryAt_of_getElem? hrow]
  simp only
  have hlt : ∀ ij ∈ pairsThrough cell, ij.1 < b.length ∧ ij.2 < b.length := by
    intro ij hij
    obtain ⟨hi, hj⟩ := pairsThrough_lt h ij hij
    exact ⟨Nat.lt_of_lt_of_le hi hb, Nat.lt_of_lt_of_le hj hb⟩
  rw [completes_eq hlt]
  split
  · next he => subst he; simp
  · rfl

/-- **The test of one move finds the owner of a line through its cell.** -/
theorem ownerAmong_winnerThrough {b : Board} (hb : 9 ≤ b.length) {cell : Nat} (h : cell < 9) :
    b.OwnerAmong (Board.linesAt cell) (winnerThrough b (cell : Int)) := by
  obtain ⟨p, hp⟩ := exists_getElem? (Nat.lt_of_lt_of_le h hb)
  rw [winnerThrough_natCast hb h hp]
  exact Board.OwnerAmong.of_candidate (pairsThrough_exists hp) fun l hl q ho =>
    ho.eq_of_mem_linesAt hl hp

/-! ## The verdict of a call -/

section Verdict

variable {b : Board} {depth move : Int}

theorem verdict_of_early (h : depth < firstLineDepth) : verdict b depth move = .ok none := by
  rw [verdict, if_pos h]

theorem verdict_of_fault (hd : ¬ depth < firstLineDepth) {f : Fault}
    (h : winnerThrough b move = .error f) : verdict b depth move = .error f := by
  rw [verdict, if_neg hd, h]

theorem verdict_of_empty (hd : ¬ depth < firstLineDepth)
    (h : winnerThrough b move = .ok Cell.empty) :
    verdict b depth move = .ok (if depth = fullDepth then some Score.tie else none) := by
  rw [verdict, if_neg hd, h]
  exact if_pos rfl

theorem verdict_of_owner (hd : ¬ depth < firstLineDepth) {p : Cell}
    (h : winnerThrough b move = .ok p) (hp : p ≠ Cell.empty) :
    verdict b depth move = .ok (some (if p = Cell.cross then Score.win else Score.lose)) := by
  rw [verdict, if_neg hd, h]
  exact if_neg hp

/-- **What a call can be decided by**: the depth alone, a fault of the line test, a line that
nobody owns, or the owner of a line. -/
theorem verdict_cases (b : Board) (depth move : Int) :
    (depth < firstLineDepth ∧ verdict b depth move = .ok none)
      ∨ (∃ f, winnerThrough b move = .error f ∧ verdict b depth move = .error f)
      ∨ (winnerThrough b move = .ok Cell.empty
        ∧ verdict b depth move = .ok (if depth = fullDepth then some Score.tie else none))
      ∨ ∃ p, p ≠ Cell.empty ∧ winnerThrough b move = .ok p
        ∧ verdict b depth move = .ok (some (if p = Cell.cross then Score.win else Score.lose)) := by
  by_cases hd : depth < firstLineDepth
  · exact Or.inl ⟨hd, verdict_of_early hd⟩
  · refine Or.inr ?_
    cases hw : winnerThrough b move with
    | error f => exact Or.inl ⟨f, rfl, verdict_of_fault hd hw⟩
    | ok p =>
      by_cases hp : p = Cell.empty
      · subst hp
        exact Or.inr (Or.inl ⟨rfl, verdict_of_empty hd hw⟩)
      · exact Or.inr (Or.inr ⟨p, hp, rfl, verdict_of_owner hd hw hp⟩)

/-- A call on one of the nine cells never ends in a fault. -/
theorem verdict_natCast (hb : 9 ≤ b.length) (depth : Int) {cell : Nat} (h : cell < 9) :
    ∃ v, verdict b depth (cell : Int) = .ok v := by
  obtain ⟨p, hp⟩ := (ownerAmong_winnerThrough hb h).exists_ok
  rcases verdict_cases b depth cell with ⟨_, hv⟩ | ⟨f, hf, _⟩ | ⟨_, hv⟩ | ⟨q, _, _, hv⟩
  · exact ⟨_, hv⟩
  · rw [hp] at hf
    cases hf
  · exact ⟨_, hv⟩
  · exact ⟨_, hv⟩

end Verdict

end Noughts
