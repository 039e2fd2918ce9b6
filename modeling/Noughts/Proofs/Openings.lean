import Noughts.Proofs.PackedBoards
import Noughts.Proofs.ParallelPhases
import Noughts.Proofs.SymmetricSearch

/-!
# Every opening is a tie

The searches of the nine openings are too long to be followed by hand, and there is no need to
follow all of them.  An opening is worth as much as its canonical cell, so that three remain: a
corner, an edge and the centre.  Any one configuration decides what an opening is worth, and so each
of the three is evaluated once, on a packed board and with both cutoffs on, which leaves a few
thousand calls of some sixty thousand (`search_corner`, `score_edge`, `score_centre`).

Together with `runOpening_eq` this says what a run comes to (`runOpening_ties`).
-/

set_option autoImplicit false

namespace Noughts

variable {cell : Nat}

/-! ## The tree of an opening -/

/-- The tree of an opening, read off its packed board. -/
def openingTree (cell : Nat) : Tree :=
  Packed.tree 8 .minimizer (Packed.empty.place .maximizer cell) cell

theorem openingBoard_getElem? (h : cell < 9) : (openingBoard cell)[cell]? = some Cell.cross := by
  rw [openingBoard, List.getElem?_set_self h]

theorem shows_openingBoard (h : cell < 9) :
    Shows (openingBoard cell) (Packed.empty.place .maximizer cell) :=
  Shows.empty.place .maximizer h (List.getElem?_replicate_of_lt h)

theorem gameTree_openingBoard (h : cell < 9) :
    gameTree (openingBoard cell) 0 cell = openingTree cell :=
  (shows_openingBoard h).gameTree_eq rfl h (openingBoard_getElem? h)

theorem complete_openingBoard (h : cell < 9) : (gameTree (openingBoard cell) 0 cell).Complete :=
  complete_gameTree (Nat.le_of_eq (length_openingBoard cell).symm) (verdict_openingBoard cell)
    (by decide) (by rw [room_openingBoard h]; decide)

/-! ## Three searches -/

/-- **The search from a corner**, with both cutoffs on. -/
theorem search_corner :
    (openingTree 0).search {} Score.bottom Score.top = ⟨Score.tie, referenceNodes⟩ := by
  decide +kernel

theorem score_edge : ((openingTree 1).search {} Score.bottom Score.top).score = Score.tie := by
  decide +kernel

theorem score_centre : ((openingTree 4).search {} Score.bottom Score.top).score = Score.tie := by
  decide +kernel

/-- Any one search finds what an opening is worth. -/
theorem value_of_search (h : cell < 9) {cfg : Pruning} {s : Score}
    (hs : ((openingTree cell).search cfg Score.bottom Score.top).score = s) :
    (gameTree (openingBoard cell) 0 cell).value = s := by
  have hvalue := (complete_openingBoard h).search_eq_value cfg (α := Score.bottom)
    (β := Score.top) (by decide) (by decide)
  rw [← hvalue, gameTree_openingBoard h, hs]

/-! ## Nine openings -/

theorem canonical_cases (h : cell < 9) :
    canonical cell = 0 ∨ canonical cell = 1 ∨ canonical cell = 4 := by
  revert cell
  decide

theorem value_canonical (h : cell < 9) :
    (gameTree (openingBoard (canonical cell)) 0 (canonical cell : Nat)).value = Score.tie := by
  rcases canonical_cases h with hcell | hcell | hcell <;> rw [hcell]
  · exact value_of_search (by decide) (congrArg Finding.score search_corner)
  · exact value_of_search (by decide) score_edge
  · exact value_of_search (by decide) score_centre

/-- **Every opening is worth a tie.** -/
theorem value_openingBoard (h : cell < 9) :
    (gameTree (openingBoard cell) 0 cell).value = Score.tie := by
  obtain ⟨s, hs⟩ := exists_landing_canonical h
  have hcanonical := value_canonical h
  rw [← hs] at hcanonical
  rw [← ((s.carries_openingBoard h).gameTree_eq h 0).1, hcanonical]

/-- Every search of an opening finds a tie. -/
theorem solve_tie (h : cell < 9) (cfg : Pruning) :
    solve cfg (openingBoard cell) cell
      = ⟨.ok Score.tie, (solve cfg (openingBoard cell) cell).nodes, openingBoard cell⟩ := by
  rw [solve_openingBoard h, value_openingBoard h]

theorem nodes_corner : (solve {} (openingBoard 0) (0 : Nat)).nodes = referenceNodes := by
  rw [solve_openingBoard (by decide), gameTree_openingBoard (by decide), search_corner]

/-! ## Runs -/

/-- A run of an opening finds a tie and notes nothing. -/
theorem runOpening_tie (h : cell < 9) (cfg : Pruning) (n : Nat) :
    runOpening cfg cell n
      = .ok { move := cell, iterations := n, score := if n = 0 then none else some Score.tie,
              nodes := n * (solve cfg (openingBoard cell) cell).nodes, log := [] } := by
  have hlog : (List.replicate n (Run.unexpected cell Score.tie)).flatten = [] := by
    rw [Run.unexpected, if_pos rfl, List.flatten_replicate_nil]
  rw [runOpening_eq h (solve_tie h cfg), hlog]

/-- A run that has a result notes nothing. -/
theorem log_eq_nil_of_runOpening {cfg : Pruning} {move n : Int} {r : Run}
    (h : runOpening cfg move n = .ok r) : r.log = [] := by
  cases hrefusal : refusal? n move with
  | some e =>
    rw [runOpening_of_refusal hrefusal] at h
    cases h
  | none =>
    obtain ⟨⟨hm, hm'⟩, hn⟩ := refusal?_eq_none_iff.mp hrefusal
    obtain ⟨cell, rfl⟩ := Int.eq_ofNat_of_zero_le hm
    obtain ⟨n, rfl⟩ := Int.eq_ofNat_of_zero_le hn
    rw [runOpening_tie (by omega)] at h
    cases h
    rfl

/-- A run that is not refused adds its calls to the counter. -/
theorem counter_runOpening_eq (c : Counter) (h : cell < 9) (cfg : Pruning) (n : Nat) :
    c.runOpening cfg cell n
      = (.ok { move := cell, iterations := n, score := if n = 0 then none else some Score.tie,
               nodes := n * (solve cfg (openingBoard cell) cell).nodes, log := [] },
          ⟨c.value + n * (solve cfg (openingBoard cell) cell).nodes⟩) := by
  rw [Counter.runOpening, runOpening_tie h]
  simp only [Counter.add, Int.natCast_mul]

/-- A refused run leaves the counter alone. -/
theorem counter_runOpening_of_refusal (c : Counter) (cfg : Pruning) {move n : Int} {e : RunError}
    (h : refusal? n move = some e) : c.runOpening cfg move n = (.error e, c) := by
  rw [Counter.runOpening, runOpening_of_refusal h]

/-- **A run of an opening is linear in its count and finds a tie.**  It reports a tie if it searched
at all, notes nothing, and makes `n` times the calls of one search of its opening, which are what it
adds to the counter; from the corner `0` with both cutoffs on, one search makes `referenceNodes`
calls.  A move off the board or a negative count is refused as an invalid value, the move before the
count, and the counter is as it was. -/
theorem runOpening_ties (cfg : Pruning) (c : Counter) (move n : Int) :
    (0 ≤ move → move ≤ 8 → 0 ≤ n → ∃ board, Board.opening? move = .ok board
        ∧ solve cfg board move = ⟨.ok Score.tie, (solve cfg board move).nodes, board⟩
        ∧ c.runOpening cfg move n
          = (.ok { move, iterations := n, score := if n = 0 then none else some Score.tie,
                   nodes := n.toNat * (solve cfg board move).nodes, log := [] },
              ⟨c.value + n * (solve cfg board move).nodes⟩)
        ∧ (move = 0 → cfg = ⟨true, true⟩ → (solve cfg board move).nodes = referenceNodes))
      ∧ (move < 0 ∨ 8 < move ∨ n < 0 → ∃ e, c.runOpening cfg move n = (.error e, c)
        ∧ e = (if 0 ≤ move ∧ move ≤ 8 then .negativeIterations n else .openingOutside move)
        ∧ (Failure.phase (.run e)).isInvalidValue = true) := by
  refine ⟨fun hm hm' hn => ?_, fun hbad => ?_⟩
  · obtain ⟨cell, rfl⟩ := Int.eq_ofNat_of_zero_le hm
    obtain ⟨n, rfl⟩ := Int.eq_ofNat_of_zero_le hn
    have hcell : cell < 9 := by omega
    refine ⟨openingBoard cell, opening?_natCast hcell, solve_tie hcell cfg, ?_, ?_⟩
    · rw [counter_runOpening_eq c hcell cfg n, Int.toNat_natCast]
      simp only [Int.natCast_eq_zero]
    · intro hmove hcfg
      obtain rfl : cell = 0 := by omega
      rw [hcfg]
      exact nodes_corner
  · cases hr : refusal? n move with
    | none =>
      have haccepted := refusal?_eq_none_iff.mp hr
      omega
    | some e =>
      refine ⟨e, counter_runOpening_of_refusal c cfg hr, ?_, isInvalidValue_of_refusal hr⟩
      rw [refusal?] at hr
      split_ifs at hr ⊢ <;> exact (Option.some.inj hr).symm

/-- Three searches from a corner, on a counter that stands at five, and two runs that are refused:
one for its count, and one for its move although its count is negative too. -/
theorem runOpening_ties_corner :
    (0 : Int) ≤ 0 ∧ (0 : Int) ≤ 8 ∧ (0 : Int) ≤ 3
      ∧ (⟨5⟩ : Counter).runOpening ⟨true, true⟩ 0 3
        = (.ok { move := 0, iterations := 3, score := some Score.tie,
                 nodes := 3 * referenceNodes, log := [] }, ⟨5 + 3 * referenceNodes⟩)
      ∧ (-2 : Int) < 0
      ∧ (⟨5⟩ : Counter).runOpening .plain 4 (-2) = (.error (.negativeIterations (-2)), ⟨5⟩)
      ∧ (⟨5⟩ : Counter).runOpening .plain 9 (-2) = (.error (.openingOutside 9), ⟨5⟩) := by
  obtain ⟨board, -, -, hrun, hnodes⟩ := (runOpening_ties ⟨true, true⟩ ⟨5⟩ 0 3).1 (by decide)
    (by decide) (by decide)
  obtain ⟨e, hcount, rfl, -⟩ := (runOpening_ties .plain ⟨5⟩ 4 (-2)).2 (by decide)
  obtain ⟨e, hmove, rfl, -⟩ := (runOpening_ties .plain ⟨5⟩ 9 (-2)).2 (by decide)
  rw [hnodes rfl rfl] at hrun
  exact ⟨by decide, by decide, by decide, hrun, by decide, hcount, hmove⟩

end Noughts
