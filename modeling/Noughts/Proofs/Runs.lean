import Noughts.Opening
import Noughts.Proofs.SearchTree

/-!
# What a run of one opening comes to

A run repeats one search on one board.  Since a search takes its moves back, every search of a run
starts from the opening, and they all find the same score with the same number of calls: the run
is linear in its count (`runOpening_eq`).

The opening itself is a position that is played to its end, eight cells for eight moves, so every
configuration finds the value of its tree (`solve_openingBoard`).

A run is refused for its cell or for its count and for nothing else (`refusal?`): no search meets a
fault.
-/

set_option autoImplicit false

namespace Noughts

/-- The board with the opening cross on one of the nine cells. -/
def openingBoard (cell : Nat) : Board := Board.empty.set cell Cell.cross

theorem opening?_natCast {cell : Nat} (h : cell < 9) :
    Board.opening? cell = .ok (openingBoard cell) := by
  rw [Board.opening?, if_pos ⟨by omega, by omega⟩, Int.toNat_natCast, openingBoard]

theorem length_openingBoard (cell : Nat) : (openingBoard cell).length = 9 := by
  rw [openingBoard, List.length_set]
  rfl

theorem room_openingBoard {cell : Nat} (h : cell < 9) : room (openingBoard cell) = 8 := by
  revert cell
  decide

/-! ## One search -/

theorem verdict_openingBoard (cell : Nat) :
    verdict (openingBoard cell) 0 cell = .ok none :=
  verdict_of_early (by decide)

/-- **The search from an opening** finds the value of its tree and leaves the opening as it was. -/
theorem solve_openingBoard {cell : Nat} (h : cell < 9) (cfg : Pruning) :
    solve cfg (openingBoard cell) cell
      = ⟨.ok (gameTree (openingBoard cell) 0 cell).value,
          ((gameTree (openingBoard cell) 0 cell).search cfg Score.bottom Score.top).nodes,
          openingBoard cell⟩ := by
  have hb : 9 ≤ (openingBoard cell).length := Nat.le_of_eq (length_openingBoard cell).symm
  have hv := verdict_openingBoard cell
  have hc := complete_gameTree hb hv (by decide) (by rw [room_openingBoard h]; decide)
  rw [solve, minimax_eq_search hb hv, hc.search_eq_value cfg (by decide) (by decide)]

/-! ## Many searches -/

/-- Searches that leave the board as it was all come to the same. -/
theorem searches_eq {cfg : Pruning} {b : Board} {move : Int} {s : Score} {k : Nat}
    (h : solve cfg b move = ⟨.ok s, k, b⟩) (n : Nat) (score : Option Score) (nodes : Nat)
    (log : Log) :
    Run.searches cfg move n ⟨b, score, nodes, log⟩
      = .ok ⟨b, if n = 0 then score else some s, nodes + n * k,
          log ++ (List.replicate n (Run.unexpected move s)).flatten⟩ := by
  induction n generalizing score nodes log with
  | zero => simp [Run.searches]
  | succ n ih =>
    rw [Run.searches, h]
    simp only [ih, Except.ok.injEq, Run.Progress.mk.injEq, true_and]
    refine ⟨by simp, by rw [Nat.succ_mul]; omega, ?_⟩
    rw [List.replicate_succ, List.flatten_cons, List.append_assoc]

/-- **A run is linear in its count.** -/
theorem runOpening_eq {cell : Nat} (h : cell < 9) {cfg : Pruning} {s : Score} {k : Nat}
    (hs : solve cfg (openingBoard cell) cell = ⟨.ok s, k, openingBoard cell⟩) (n : Nat) :
    runOpening cfg cell n
      = .ok { move := cell, iterations := n, score := if n = 0 then none else some s,
              nodes := n * k,
              log := (List.replicate n (Run.unexpected cell s)).flatten } := by
  rw [runOpening, opening?_natCast h]
  simp only [if_neg (Int.not_lt.mpr (Int.natCast_nonneg n)), Int.toNat_natCast,
    searches_eq hs n none 0 [], Nat.zero_add, List.nil_append]

theorem runOpening_of_neg {cell : Nat} (h : cell < 9) (cfg : Pruning) {n : Int} (hn : n < 0) :
    runOpening cfg cell n = .error (.negativeIterations n) := by
  rw [runOpening, opening?_natCast h]
  simp only [if_pos hn]

/-! ## Which runs are refused -/

/-- Why a run is refused, if it is.  The cell is looked at first. -/
def refusal? (iterations move : Int) : Option RunError :=
  if 0 ≤ move ∧ move ≤ 8 then
    if iterations < 0 then some (.negativeIterations iterations) else none
  else some (.openingOutside move)

theorem refusal?_eq_none_iff {iterations move : Int} :
    refusal? iterations move = none ↔ (0 ≤ move ∧ move ≤ 8) ∧ 0 ≤ iterations := by
  rw [refusal?]
  split_ifs with hmove hn
  · simp only [false_iff]
    omega
  · simp only [true_iff]
    omega
  · simp only [hmove, false_and]

/-- Is a run not refused? -/
def accepted (iterations move : Int) : Bool := (refusal? iterations move).isNone

theorem accepted_iff {iterations move : Int} :
    accepted iterations move = true ↔ refusal? iterations move = none := by
  rw [accepted, Option.isNone_iff_eq_none]

/-- A refused run ends with the reason. -/
theorem runOpening_of_refusal {cfg : Pruning} {iterations move : Int} {e : RunError}
    (h : refusal? iterations move = some e) : runOpening cfg move iterations = .error e := by
  rw [refusal?] at h
  split_ifs at h with hmove hn
  · obtain ⟨cell, rfl⟩ := Int.eq_ofNat_of_zero_le hmove.1
    cases h
    exact runOpening_of_neg (by omega) cfg hn
  · cases h
    rw [runOpening, Board.opening?, if_neg hmove]

/-- **A run that is not refused has a result**: it is the run of its move, and it makes the calls of
one search, as often as it searches. -/
theorem exists_run (cfg : Pruning) {iterations move : Int}
    (h : refusal? iterations move = none) :
    ∃ r, runOpening cfg move iterations = .ok r ∧ r.move = move
      ∧ (r.nodes : Int) = iterations * (solve cfg (openingBoard move.toNat) move).nodes := by
  obtain ⟨⟨hm, hm'⟩, hn⟩ := refusal?_eq_none_iff.mp h
  obtain ⟨cell, rfl⟩ := Int.eq_ofNat_of_zero_le hm
  obtain ⟨n, rfl⟩ := Int.eq_ofNat_of_zero_le hn
  have hcell : cell < 9 := by omega
  refine ⟨_, runOpening_eq hcell (solve_openingBoard hcell cfg) n, rfl, ?_⟩
  rw [Int.toNat_natCast, solve_openingBoard hcell cfg]
  exact Int.natCast_mul _ _

/-- The calls that a run has to its account: none if it was refused. -/
def callsOf : Except RunError Run → Int
  | .ok r => r.nodes
  | .error _ => 0

@[simp] theorem callsOf_ok (r : Run) : callsOf (.ok r) = r.nodes := rfl

@[simp] theorem callsOf_error (e : RunError) : callsOf (.error e) = 0 := rfl

theorem callsOf_runOpening {cfg : Pruning} {iterations move : Int}
    (h : refusal? iterations move = none) :
    callsOf (runOpening cfg move iterations)
      = iterations * (solve cfg (openingBoard move.toNat) move).nodes := by
  obtain ⟨r, hr, -, hnodes⟩ := exists_run cfg h
  rw [hr, callsOf_ok, hnodes]

end Noughts
