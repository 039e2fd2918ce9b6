import Noughts.Proofs.SearchTree

/-!
# When a search meets a fault

On a board that has all nine cells the only thing that can go wrong is the line test of the move
that the search was called with.  Its cell is read twice, on the board and in the table of lines,
and the two tables are of different sizes once the board has more than nine cells; so a move can
name a cell of the board and still have no lines (`Untestable`).  The moves that the search makes
itself are cells among the nine, and are never refused.

* `exists_entry_iff`: which integers name an entry of a table.
* `winnerThrough_error_iff`, `verdict_error_iff`: which moves cannot be tested, and that the depth
  decides whether anybody asks.
* `minimax_takes_back`: a search that finds a score hands the board back as it was, on a board of
  any length; on a board with its nine cells it meets a fault exactly when its own move cannot be
  tested, and then it has done nothing yet.
-/

set_option autoImplicit false

namespace Noughts

/-! ## Reading by a signed index -/

/-- `i` names an entry of a table of `size` entries, from the front or from the back. -/
def InRange (size : Nat) (i : Int) : Prop :=
  -(size : Int) ≤ i ∧ i < size

section Reading

variable {table : Table} {size : Nat} {i : Int}

/-- **The place that an index names**, counted from the front or from the back. -/
theorem position_eq_ok_iff {k : Nat} :
    position table size i = .ok k ↔ k < size ∧ (i = k ∨ i = (k : Int) - size) := by
  rw [position, position?]
  by_cases h0 : 0 ≤ i
  · by_cases hi : i < size
    · simp only [if_pos h0, if_pos hi, Except.ok.injEq]
      omega
    · simp only [if_pos h0, if_neg hi, reduceCtorEq, false_iff]
      omega
  · by_cases hi : -(size : Int) ≤ i
    · simp only [if_neg h0, if_pos hi, Except.ok.injEq]
      omega
    · simp only [if_neg h0, if_neg hi, reduceCtorEq, false_iff]
      omega

theorem exists_position_iff (table : Table) :
    (∃ k, position table size i = .ok k) ↔ InRange size i := by
  simp only [position_eq_ok_iff, InRange]
  constructor
  · rintro ⟨k, hk, rfl | rfl⟩ <;> omega
  · rintro ⟨hlo, hhi⟩
    by_cases h0 : 0 ≤ i
    · exact ⟨i.toNat, by omega, by omega⟩
    · exact ⟨(i + size).toNat, by omega, by omega⟩

/-- What is read by an index is an entry of the table. -/
theorem mem_of_entry {α : Type} {xs : List α} {a : α} (h : entry table xs i = .ok a) : a ∈ xs := by
  rw [entry] at h
  cases hp : position table xs.length i with
  | error f => simp [hp] at h
  | ok k =>
    obtain ⟨x, hx⟩ := exists_getElem? (position_eq_ok_iff.mp hp).1
    simp only [hp, entryAt_of_getElem? hx, Except.ok.injEq] at h
    rw [← h]
    exact List.mem_of_getElem? hx

/-- **The integers that can be read by.** -/
theorem exists_entry_iff {α : Type} (table : Table) {xs : List α} :
    (∃ a, entry table xs i = .ok a) ↔ InRange xs.length i := by
  rw [entry, ← exists_position_iff table]
  cases hp : position table xs.length i with
  | error f => simp
  | ok k =>
    obtain ⟨x, hx⟩ := exists_getElem? (position_eq_ok_iff.mp hp).1
    simp only [entryAt_of_getElem? hx]
    exact ⟨fun _ => ⟨k, rfl⟩, fun _ => ⟨x, rfl⟩⟩

end Reading

/-! ## The line test -/

variable {b : Board} {depth move : Int}

/-- The line test of `move` cannot be made: there is no such cell on the board, or there is one,
with a piece on it, that the table of lines does not know. -/
def Untestable (b : Board) (move : Int) : Prop :=
  ¬ InRange b.length move ∨ (∃ p, entry .cells b move = .ok p ∧ p ≠ Cell.empty) ∧ ¬ InRange 9 move

/-- The lines of a cell are those through one of the nine cells. -/
theorem exists_pairsThrough {pairs : List (Nat × Nat)}
    (h : entry .lines linesThrough move = .ok pairs) : ∃ cell < 9, pairsThrough cell = pairs := by
  obtain ⟨cell, hcell, he⟩ := List.mem_map.mp (mem_of_entry h)
  exact ⟨cell, List.mem_range.mp hcell, he⟩

/-- On a board with its nine cells, looking along the lines of a cell meets no fault. -/
theorem exists_completes (hb : 9 ≤ b.length) {pairs : List (Nat × Nat)}
    (h : entry .lines linesThrough move = .ok pairs) (p : Cell) :
    ∃ q, completes b p pairs = .ok q := by
  obtain ⟨cell, hcell, rfl⟩ := exists_pairsThrough h
  refine ⟨_, completes_eq fun ij hij => ?_⟩
  obtain ⟨hi, hj⟩ := pairsThrough_lt hcell ij hij
  exact ⟨Nat.lt_of_lt_of_le hi hb, Nat.lt_of_lt_of_le hj hb⟩

/-- **The moves that cannot be tested.** -/
theorem winnerThrough_error_iff (hb : 9 ≤ b.length) :
    (∃ f, winnerThrough b move = .error f) ↔ Untestable b move := by
  rw [winnerThrough, Untestable, ← exists_entry_iff .cells]
  cases hcell : entry .cells b move with
  | error f => simp
  | ok p =>
    have hlines : InRange 9 move ↔ ∃ pairs, entry .lines linesThrough move = .ok pairs := by
      rw [exists_entry_iff]
      rfl
    rw [hlines]
    by_cases hp : p = Cell.empty
    · simp [hp]
    · cases hrow : entry .lines linesThrough move with
      | error f => simp [hp]
      | ok pairs =>
        obtain ⟨q, hq⟩ := exists_completes hb hrow p
        simp [hp, hq]

/-- A call is refused for its move alone, and only at a depth at which a line is looked for. -/
theorem verdict_error_iff (hb : 9 ≤ b.length) :
    (∃ f, verdict b depth move = .error f) ↔ firstLineDepth ≤ depth ∧ Untestable b move := by
  rw [← winnerThrough_error_iff hb]
  rcases verdict_cases b depth move with ⟨hd, hv⟩ | ⟨f, hf, hv⟩ | ⟨hw, hv⟩ | ⟨p, _, hw, hv⟩
  · simp [hv, not_le.mpr hd]
  · have hd : firstLineDepth ≤ depth := not_lt.mp fun hd => by
      rw [verdict_of_early hd] at hv
      cases hv
    simp [hv, hf, hd]
  · simp [hv, hw]
  · simp [hv, hw]

/-! ## The search -/

variable {cfg : Pruning} {α β : Score}

/-- A search of a board with its nine cells meets a fault exactly when its own call is refused:
none of the calls below it is. -/
theorem minimax_error_iff (hb : 9 ≤ b.length) {f : Fault} :
    (minimax cfg b α β depth move).score = .error f ↔ verdict b depth move = .error f := by
  cases hv : verdict b depth move with
  | error g => simp [minimax_of_fault hv]
  | ok v => simp [minimax_eq_search hb hv]

/-- **Backtracking.**  A search that finds a score leaves the board as it was.  On a board with its
nine cells it finds one unless a line is looked for through a move that cannot be tested.  Then
every configuration meets the same fault in every window, after a single call, and the board has
not been touched. -/
theorem minimax_takes_back (b : Board) (depth move : Int) :
    (∀ cfg α β s, (minimax cfg b α β depth move).score = .ok s →
        (minimax cfg b α β depth move).board = b)
      ∧ (9 ≤ b.length →
        (∀ cfg α β, (∃ f, (minimax cfg b α β depth move).score = .error f)
          ↔ firstLineDepth ≤ depth ∧ Untestable b move)
        ∧ ∀ cfg α β f, (minimax cfg b α β depth move).score = .error f →
          ∀ cfg' α' β', minimax cfg' b α' β' depth move = ⟨.error f, 1, b⟩) := by
  refine ⟨fun cfg α β s h => minimax_board h, fun hb => ⟨fun cfg α β => ?_, ?_⟩⟩
  · simp only [minimax_error_iff hb, verdict_error_iff hb]
  · intro cfg α β f hf cfg' α' β'
    exact minimax_of_fault ((minimax_error_iff hb).mp hf) α' β'

/-- A board with a tenth cell and a piece on it: a search after a move in a corner finds a tie and
leaves the board alone, and one after a move on the tenth cell is refused. -/
theorem minimax_takes_back_tenth_cell :
    9 ≤ ([1, 2, 1, 2, 2, 1, 0, 0, 0, 1] : Board).length
      ∧ (minimax {} [1, 2, 1, 2, 2, 1, 0, 0, 0, 1] 2 5 5 0).score = .ok Score.tie
      ∧ (minimax {} [1, 2, 1, 2, 2, 1, 0, 0, 0, 1] 2 5 5 0).board = [1, 2, 1, 2, 2, 1, 0, 0, 0, 1]
      ∧ (firstLineDepth ≤ (5 : Int) ∧ Untestable [1, 2, 1, 2, 2, 1, 0, 0, 0, 1] 9)
      ∧ (minimax {} [1, 2, 1, 2, 2, 1, 0, 0, 0, 1] 2 5 5 9).score = .error (.absent .lines)
      ∧ ∀ cfg' α' β', minimax cfg' [1, 2, 1, 2, 2, 1, 0, 0, 0, 1] α' β' 5 9
        = ⟨.error (.absent .lines), 1, [1, 2, 1, 2, 2, 1, 0, 0, 0, 1]⟩ := by
  have htie : (minimax {} [1, 2, 1, 2, 2, 1, 0, 0, 0, 1] 2 5 5 0).score = .ok Score.tie := rfl
  have hrefused : (minimax {} [1, 2, 1, 2, 2, 1, 0, 0, 0, 1] 2 5 5 9).score
      = .error (.absent .lines) := rfl
  have hcorner := minimax_takes_back [1, 2, 1, 2, 2, 1, 0, 0, 0, 1] 5 0
  have htenth := (minimax_takes_back [1, 2, 1, 2, 2, 1, 0, 0, 0, 1] 5 9).2 (by decide)
  exact ⟨by decide, htie, hcorner.1 _ _ _ _ htie, (htenth.1 _ _ _).mp ⟨_, hrefused⟩, hrefused,
    htenth.2 _ _ _ _ hrefused⟩

end Noughts
