import Noughts.Proofs.Schedules
import Noughts.Session

/-!
# Parallel and serial phases

The two kinds of phase side by side, over all schedules of the parallel one.

* `parallel_agrees_with_serial`: over openings on the board and a count that is not negative, both
  count the same nodes and find the same scores.  They only list them in another order.
* `phase_refusals`: over any openings and any count, both end with an error in the same cases.  They
  differ in which refusal is reported, where the caller's own run counts as the first one, and in
  what the counter holds: the workers that share its memory go on regardless of each other, the
  others' calls are lost from the first refusal on.
-/

set_option autoImplicit false

namespace Noughts

open Schedule (Pool Steps CanEnd)

/-! ## What a parallel phase comes to -/

/-- A parallel phase comes to a result and leaves a counter: in one order of its steps as in any
other, and no order gets stuck. -/
structure ComesTo (cfg : Pruning) (executorName : String) (moves : List Int) (iterations : Int)
    (before : Counter) (result : Except PhaseError Tally) (after : Counter) : Prop where
  /-- One order is that of the work that is done. -/
  work : parallelTally cfg executorName moves iterations before = (result, after)
  /-- However far the phase has got, it can be brought to its end. -/
  ends : ∀ p, Pool.start? cfg executorName moves iterations = .ok p →
    ∀ s, Steps p (.start p before) s → ∃ t r, Steps p s t ∧ t.result? = some r
  /-- Every order comes to the same. -/
  always : ∀ result' after', CanEnd cfg executorName moves iterations before result' after' →
    result' = result ∧ after' = after

theorem ComesTo.of_work {cfg : Pruning} {executorName : String} {moves : List Int}
    {iterations : Int} {before after : Counter} {result : Except PhaseError Tally}
    (h : parallelTally cfg executorName moves iterations before = (result, after)) :
    ComesTo cfg executorName moves iterations before result after where
  work := h
  ends := fun _ _ _ hsteps => Schedule.exists_result hsteps
  always := by
    intro result' after' hend
    have heq := (Schedule.canEnd_iff.mp hend).symm.trans h
    exact ⟨congrArg Prod.fst heq, congrArg Prod.snd heq⟩

/-! ## Without refusals -/

/-- **A parallel phase agrees with a serial one, whatever the order of its workers.**  Both count
the calls of all runs, repeated openings included, and leave the counter at that; both give every
opening the score of its run.  The parallel phase lists the scores by opening, the serial one in the
order in which the openings come up. -/
theorem parallel_agrees_with_serial (cfg : Pruning) (executor : Executor) {moves : List Int}
    (hne : moves ≠ []) (hmoves : ∀ move ∈ moves, 0 ≤ move ∧ move ≤ 8) {iterations : Int}
    (hn : 0 ≤ iterations) (before : Counter) :
    ∃ parallel serial : Tally,
      ComesTo cfg executor.name moves iterations before (.ok parallel) ⟨parallel.nodes⟩
        ∧ serialTally cfg moves iterations before = (.ok serial, ⟨serial.nodes⟩)
        ∧ parallel.nodes = totalCalls cfg iterations moves
        ∧ serial.nodes = totalCalls cfg iterations moves
        ∧ parallel.iterations = iterations ∧ serial.iterations = iterations
        ∧ (∀ move, parallel.scores.lookup move = serial.scores.lookup move)
        ∧ (∀ move ∈ moves, serial.scores.lookup move = some (scoreOf cfg iterations move))
        ∧ (parallel.scores.map Prod.fst).Pairwise (· < ·)
        ∧ serial.scores.map Prod.fst = moves.eraseDups := by
  have haccepted : ∀ move ∈ moves, refusal? iterations move = none := fun move hmove =>
    refusal?_eq_none_iff.mpr ⟨hmoves move hmove, hn⟩
  obtain ⟨serial, hserial, hsnodes, hsiterations, hsscores⟩ :=
    exists_serialTally cfg haccepted
  obtain ⟨pooled, last, rfl⟩ := (List.eq_nil_or_concat' moves).resolve_left hne
  obtain ⟨parallel, order, hparallel, hpnodes, hpiterations, hpscores, hsorted, hmem⟩ :=
    exists_parallelTally cfg executor haccepted
  refine ⟨parallel, serial, .of_work (hparallel before), hserial before, hpnodes, hsnodes,
    hpiterations, hsiterations, fun move => ?_, fun move hmove => ?_, ?_, ?_⟩
  · rw [hpscores, hsscores, Scores.lookup_tabulate, Scores.lookup_tabulate]
    simp only [hmem, List.mem_eraseDups]
  · rw [hsscores, Scores.lookup_tabulate, if_pos (List.mem_eraseDups.mpr hmove)]
  · rw [hpscores, Scores.map_fst_tabulate]
    exact hsorted
  · rw [hsscores, Scores.map_fst_tabulate]

/-- Two searches each of the centre, the corner and the centre again, on workers that do not share
the caller's memory, with a counter that was left at `7`. -/
theorem parallel_agrees_with_serial_repeated :
    [(4 : Int), 0, 4] ≠ [] ∧ (∀ move ∈ [(4 : Int), 0, 4], 0 ≤ move ∧ move ≤ 8) ∧ (0 : Int) ≤ 2
      ∧ ∃ parallel serial : Tally,
        ComesTo {} Executor.processes.name [4, 0, 4] 2 ⟨7⟩ (.ok parallel) ⟨parallel.nodes⟩
          ∧ serialTally {} [4, 0, 4] 2 ⟨7⟩ = (.ok serial, ⟨serial.nodes⟩)
          ∧ parallel.nodes = totalCalls {} 2 [4, 0, 4] ∧ serial.nodes = totalCalls {} 2 [4, 0, 4]
          ∧ parallel.iterations = 2 ∧ serial.iterations = 2
          ∧ (∀ move, parallel.scores.lookup move = serial.scores.lookup move)
          ∧ (∀ move ∈ [(4 : Int), 0, 4], serial.scores.lookup move = some (scoreOf {} 2 move))
          ∧ (parallel.scores.map Prod.fst).Pairwise (· < ·)
          ∧ serial.scores.map Prod.fst = [4, 0] :=
  ⟨by decide, by decide, by decide,
    parallel_agrees_with_serial {} .processes (by decide) (by decide) (by decide) ⟨7⟩⟩

/-! ## With refusals -/

section Refusals

variable {iterations : Int} {moves order : List Int}

/-- How a phase over some openings may fail, when `first` is the refusal that it meets first. -/
structure FailsBy (iterations : Int) (moves : List Int) (first : Option RunError)
    (result : Except PhaseError Tally) : Prop where
  /-- It fails just if the count is negative or an opening is off the board. -/
  fails_iff : (∃ e, result = .error e)
    ↔ iterations < 0 ∨ ∃ move ∈ moves, move < 0 ∨ 8 < move
  /-- The error is that of the run it meets first, and one of the values that were given. -/
  reason : ∀ e, result = .error e →
    first.map .run = some e ∧ (Failure.phase e).isInvalidValue = true

/-- Some move of a list is refused just if the count is negative or a move is off the board. -/
theorem exists_refusal_iff (hne : moves ≠ []) :
    (∃ e, moves.findSome? (refusal? iterations) = some e)
      ↔ iterations < 0 ∨ ∃ move ∈ moves, move < 0 ∨ 8 < move := by
  rw [← Option.ne_none_iff_exists', Ne, List.findSome?_eq_none_iff]
  simp only [refusal?_eq_none_iff, not_forall]
  constructor
  · rintro ⟨move, hmem, h⟩
    by_cases hn : iterations < 0
    · exact Or.inl hn
    · exact Or.inr ⟨move, hmem, by omega⟩
  · rintro (hn | ⟨move, hmem, h⟩)
    · obtain ⟨move, hmem⟩ := List.exists_mem_of_ne_nil moves hne
      exact ⟨move, hmem, by omega⟩
    · exact ⟨move, hmem, by omega⟩

theorem isInvalidValue_of_refusal {move : Int} {e : RunError}
    (h : refusal? iterations move = some e) :
    (Failure.phase (.run e)).isInvalidValue = true := by
  rw [refusal?] at h
  split_ifs at h <;> cases h <;> rfl

/-- A phase that joins its runs in some order fails by the first refusal in that order. -/
theorem FailsBy.of_joined (cfg : Pruning) (hne : order ≠ []) (tally : List Run → Tally) :
    FailsBy iterations order (order.findSome? (refusal? iterations))
      (reported tally (joined (order.map fun move => runOpening cfg move iterations))) where
  fails_iff := by
    rw [← exists_refusal_iff hne]
    simp only [← joined_eq_error_iff cfg]
    cases joined (order.map fun move => runOpening cfg move iterations) <;> simp [reported]
  reason := by
    intro e he
    cases hjoined : joined (order.map fun move => runOpening cfg move iterations) with
    | ok runs =>
      rw [hjoined] at he
      cases he
    | error refusal =>
      rw [hjoined] at he
      cases he
      have hfirst := (joined_eq_error_iff cfg).mp hjoined
      obtain ⟨move, -, hmove⟩ := List.exists_of_findSome?_eq_some hfirst
      exact ⟨by rw [hfirst]; rfl, isInvalidValue_of_refusal hmove⟩

/-- Only which openings there are decides whether a phase fails. -/
theorem FailsBy.congr {first : Option RunError} {result : Except PhaseError Tally}
    (h : FailsBy iterations order first result) (hmem : ∀ move, move ∈ order ↔ move ∈ moves) :
    FailsBy iterations moves first result where
  fails_iff := by
    rw [h.fails_iff]
    simp only [hmem]
  reason := h.reason

/-- The caller's own refusal is met first, and the others in the order of the openings. -/
theorem findSome?_own_first (pooled : List Int) (last : Int) :
    (last :: pooled).findSome? (refusal? iterations)
      = (refusal? iterations last).or ((pooled ++ [last]).findSome? (refusal? iterations)) := by
  rw [List.findSome?_cons, List.findSome?_append]
  cases hlast : refusal? iterations last <;> simp [hlast]

/-- **Which error a phase ends with, and what it leaves in the counter.**  A parallel phase of no
known kind, or without openings, leaves the counter alone.  Any other phase fails in the same cases
as the other kind.  The serial one reports the first refusal in the order of the openings, and the
parallel one does so unless its last opening is refused: that run is the caller's own.

The serial phase has then counted the runs before the first refusal.  The parallel one has counted
all that are not refused if the workers share memory.  If they do not, it has counted nothing when
its own run is refused, and otherwise that run and those before the first refusal.  A serial phase
without openings has a result. -/
theorem phase_refusals (cfg : Pruning) (iterations : Int) (before : Counter) :
    (∀ (executorName : String) (moves : List Int),
        executorName ≠ "thread" → executorName ≠ "process" →
          ComesTo cfg executorName moves iterations before
            (.error (.unknownExecutor executorName)) before)
      ∧ (∀ executor : Executor,
          ComesTo cfg executor.name [] iterations before (.error .noMoves) before)
      ∧ (∀ (executor : Executor) (pooled : List Int) (last : Int),
          ∃ (result : Except PhaseError Tally) (after : Counter),
            ComesTo cfg executor.name (pooled ++ [last]) iterations before result after
              ∧ FailsBy iterations (pooled ++ [last])
                ((refusal? iterations last).or
                  ((pooled ++ [last]).findSome? (refusal? iterations))) result
              ∧ after.value =
                match executor with
                | .threads =>
                  totalCalls cfg iterations ((pooled ++ [last]).filter (accepted iterations))
                | .processes =>
                  if accepted iterations last then
                    callsOf (runOpening cfg last iterations)
                      + totalCalls cfg iterations (pooled.takeWhile (accepted iterations))
                  else 0)
      ∧ (∀ moves : List Int, moves ≠ [] →
          ∃ (result : Except PhaseError Tally) (after : Counter),
            serialTally cfg moves iterations before = (result, after)
              ∧ FailsBy iterations moves (moves.findSome? (refusal? iterations)) result
              ∧ after.value
                = totalCalls cfg iterations (moves.takeWhile (accepted iterations)))
      ∧ serialTally cfg [] iterations before
          = (.ok { nodes := 0, iterations := iterations, scores := [] }, ⟨0⟩) := by
  refine ⟨fun executorName moves hthreads hprocesses => .of_work ?_, fun executor => .of_work ?_,
    fun executor pooled last => ?_, fun moves hne => ?_, rfl⟩
  · rw [parallelTally, Executor.ofName_of_ne hthreads hprocesses]
  · rw [parallelTally, Executor.ofName_name]
    rfl
  · refine ⟨_, _, .of_work (parallelTally_concat cfg executor pooled last iterations before), ?_,
      sum_additions_runs cfg executor pooled last iterations⟩
    rw [← findSome?_own_first]
    exact (FailsBy.of_joined cfg (List.cons_ne_nil last pooled) _).congr
      fun move => by simp [or_comm]
  · exact ⟨_, _, serialTally_eq cfg moves iterations before, .of_joined cfg hne _, rfl⟩

/-- Three runs of which the one in the middle is refused, on workers with a memory of their own: the
phase fails by that refusal, and has counted its own run, the last one, and the first. -/
theorem phase_refusals_middle :
    "fiber" ≠ "thread" ∧ "fiber" ≠ "process"
      ∧ ComesTo {} "fiber" [4, 9, 0] 1 ⟨7⟩ (.error (.unknownExecutor "fiber")) ⟨7⟩
      ∧ [(4 : Int), 9, 0] ≠ []
      ∧ serialTally {} [4, 9, 0] 1 ⟨7⟩
        = (.error (.run (.openingOutside 9)), ⟨totalCalls {} 1 [4]⟩)
      ∧ ComesTo {} Executor.processes.name [4, 9, 0] 1 ⟨7⟩ (.error (.run (.openingOutside 9)))
        ⟨callsOf (runOpening {} 0 1) + totalCalls {} 1 [4]⟩ := by
  obtain ⟨hunknown, -, hparallel, hserial, -⟩ := phase_refusals {} 1 ⟨7⟩
  have hfiber : "fiber" ≠ "thread" ∧ "fiber" ≠ "process" := by decide
  have hmiddle : ∃ move ∈ [(4 : Int), 9, 0], move < 0 ∨ 8 < move := ⟨9, by decide, by decide⟩
  refine ⟨hfiber.1, hfiber.2, hunknown _ _ hfiber.1 hfiber.2, by decide, ?_, ?_⟩
  · obtain ⟨result, after, heq, hfails, hvalue⟩ := hserial [4, 9, 0] (by decide)
    obtain ⟨e, rfl⟩ := hfails.fails_iff.mpr (Or.inr hmiddle)
    have hfirst : [(4 : Int), 9, 0].findSome? (refusal? 1) = some (.openingOutside 9) := by decide
    have htaken : [(4 : Int), 9, 0].takeWhile (accepted 1) = [4] := by decide
    rw [hfirst] at hfails
    rw [htaken] at hvalue
    cases (hfails.reason e rfl).1
    rw [heq, ← hvalue]
  · obtain ⟨result, after, hcomes, hfails, hvalue⟩ := hparallel .processes [4, 9] 0
    obtain ⟨e, rfl⟩ := hfails.fails_iff.mpr (Or.inr hmiddle)
    have hfirst : (refusal? 1 0).or (([(4 : Int), 9] ++ [0]).findSome? (refusal? 1))
        = some (.openingOutside 9) := by decide
    have htaken : [(4 : Int), 9].takeWhile (accepted 1) = [4] := by decide
    rw [hfirst] at hfails
    simp only [htaken, if_pos (show accepted 1 0 = true by decide)] at hvalue
    cases (hfails.reason e rfl).1
    rwa [← hvalue]

end Refusals

end Noughts
