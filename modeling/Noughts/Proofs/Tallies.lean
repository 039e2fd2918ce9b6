import Noughts.Phase
import Noughts.Proofs.Runs
import Mathlib.Algebra.BigOperators.Ring.List
import Mathlib.Algebra.Ring.Int.Defs
import Mathlib.Data.List.Induction
import Mathlib.Data.List.TakeWhile

/-!
# What the runs of a phase come to

A phase has a list of results, one for each of its runs, and both kinds of phase go by it in the
same way: the results are joined in order up to the first failure (`joined_map_ok`,
`joined_of_failure`), and the calls of some of them are added up.  This file says what comes out,
first for any list of results and then for the runs of a list of moves, where it can be read off the
moves themselves (`refusal?`).

* `serialTally_eq`: the serial phase joins the results in the order of the moves, and its counter
  has the calls of those before the first failure.
* `parallelTally_concat`: the parallel phase joins the caller's own result first, and
  `sum_additions_runs` says what its counter has.
* `ofRuns_eq`: the scores of some runs, when runs of the same move have the same score, are a table
  with one entry for every move, in the order in which the moves come up.
-/

set_option autoImplicit false

namespace Noughts

open Executor (amount?)

/-! ## Lists of results -/

theorem joined_map_ok (runs : List Run) : joined (runs.map .ok) = .ok runs := by
  induction runs with
  | nil => rfl
  | cons r runs ih => rw [List.map_cons, joined, ih]

theorem joined_of_failure (runs : List Run) (e : RunError)
    (rest : List (Except RunError Run)) :
    joined (runs.map .ok ++ .error e :: rest) = .error e := by
  induction runs with
  | nil => rfl
  | cons r runs ih => rw [List.map_cons, List.cons_append, joined, ih]

/-! ## Sums of calls -/

/-- The results before the first failure. -/
def beforeFailure (results : List (Except RunError Run)) : List (Except RunError Run) :=
  results.takeWhile fun r => (amount? r).isSome

theorem beforeFailure_ok_append (runs : List Run) (rest : List (Except RunError Run)) :
    beforeFailure (runs.map .ok ++ rest) = runs.map .ok ++ beforeFailure rest := by
  refine List.takeWhile_append_of_pos fun r hr => ?_
  obtain ⟨run, -, rfl⟩ := List.mem_map.mp hr
  rfl

theorem beforeFailure_map_ok (runs : List Run) : beforeFailure (runs.map .ok) = runs.map .ok := by
  simpa [beforeFailure] using beforeFailure_ok_append runs []

theorem beforeFailure_of_failure (runs : List Run) (e : RunError)
    (rest : List (Except RunError Run)) :
    beforeFailure (runs.map .ok ++ .error e :: rest) = runs.map .ok := by
  rw [beforeFailure_ok_append]
  exact List.append_nil _

theorem sum_filterMap_amount? (results : List (Except RunError Run)) :
    (results.filterMap amount?).sum = (results.map callsOf).sum := by
  induction results with
  | nil => rfl
  | cons result results ih =>
    cases result with
    | error e => rw [List.filterMap_cons_none rfl, ih, List.map_cons, List.sum_cons, callsOf_error,
        Int.zero_add]
    | ok r =>
      have hamount : amount? (.ok r) = some (r.nodes : Int) := rfl
      rw [List.filterMap_cons_some hamount, List.sum_cons, ih, List.map_cons, List.sum_cons,
        callsOf_ok]

/-- **What a parallel phase adds to its counter**, all in all. -/
theorem sum_additions (executor : Executor) (pooled : List (Except RunError Run))
    (own : Except RunError Run) :
    (executor.additions pooled own).sum =
      match executor with
      | .threads => (pooled.map callsOf).sum + callsOf own
      | .processes => ((beforeFailure (own :: pooled)).map callsOf).sum := by
  cases executor with
  | threads =>
    rw [Executor.additions, sum_filterMap_amount?, List.map_append, List.sum_append,
      List.map_singleton, List.sum_singleton]
  | processes => exact sum_filterMap_amount? _

theorem Counter.addAll_eq (c : Counter) (amounts : List Int) :
    c.addAll amounts = ⟨c.value + amounts.sum⟩ := by
  induction amounts generalizing c with
  | nil => exact congrArg Counter.mk (Int.add_zero c.value).symm
  | cons n rest ih =>
    rw [List.sum_cons, ← Int.add_assoc]
    exact ih (c.add n)

/-- **The serial phase** joins the results in the order of the moves, and counts the calls of those
before the first failure. -/
theorem runInOrder_eq (cfg : Pruning) (iterations : Int) (moves : List Int) (c : Counter) :
    runInOrder cfg iterations moves c =
      (joined (moves.map fun move => runOpening cfg move iterations),
        ⟨c.value + ((beforeFailure
          (moves.map fun move => runOpening cfg move iterations)).map callsOf).sum⟩) := by
  induction moves generalizing c with
  | nil => simp [runInOrder, joined, beforeFailure]
  | cons move rest ih =>
    rw [runInOrder, Counter.runOpening, List.map_cons]
    cases runOpening cfg move iterations with
    | error e => simp [joined, beforeFailure, amount?]
    | ok r =>
      have hbefore (results : List (Except RunError Run)) :
          beforeFailure (.ok r :: results) = .ok r :: beforeFailure results :=
        beforeFailure_ok_append [r] results
      simp only [ih, joined, hbefore, List.map_cons, List.sum_cons, callsOf_ok, Counter.value_add,
        Int.add_assoc]
      cases joined (rest.map fun move => runOpening cfg move iterations) <;> rfl

/-! ## The runs of a list of moves -/

variable {cfg : Pruning} {iterations : Int} {moves : List Int}

/-- Moves of which none is refused have a run each. -/
theorem exists_runs (cfg : Pruning) (moves : List Int)
    (h : ∀ move ∈ moves, refusal? iterations move = none) :
    ∃ runs : List Run, (moves.map fun move => runOpening cfg move iterations) = runs.map .ok
      ∧ runs.map Run.move = moves ∧ ∀ r ∈ runs, runOpening cfg r.move iterations = .ok r := by
  induction moves with
  | nil => exact ⟨[], rfl, rfl, by simp⟩
  | cons move rest ih =>
    obtain ⟨runs, hruns, hmoves, hrun⟩ := ih fun m hm => h m (List.mem_cons_of_mem _ hm)
    obtain ⟨r, hr, hmove, -⟩ := exists_run cfg (h move List.mem_cons_self)
    refine ⟨r :: runs, ?_, ?_, ?_⟩
    · rw [List.map_cons, hr, hruns, List.map_cons]
    · rw [List.map_cons, hmove, hmoves]
    · intro r' hr'
      rcases List.mem_cons.mp hr' with rfl | hr'
      · rw [hmove, hr]
      · exact hrun r' hr'

/-- **Joining the runs of some moves** fails with the reason of the first move that is refused. -/
theorem joined_eq_error_iff (cfg : Pruning) {e : RunError} :
    joined (moves.map fun move => runOpening cfg move iterations) = .error e
      ↔ moves.findSome? (refusal? iterations) = some e := by
  induction moves with
  | nil => simp [joined]
  | cons move rest ih =>
    rw [List.map_cons, List.findSome?_cons]
    cases hrefusal : refusal? iterations move with
    | some e' =>
      rw [runOpening_of_refusal hrefusal, joined]
      simp
    | none =>
      obtain ⟨r, hr, -, -⟩ := exists_run cfg hrefusal
      rw [hr, joined]
      simp only [← ih]
      cases joined (rest.map fun move => runOpening cfg move iterations) <;> simp

/-- A phase that has a result is one of which no run is refused. -/
theorem accepted_of_reported {tally : List Run → Tally} {t : Tally}
    (h : reported tally (joined (moves.map fun move => runOpening cfg move iterations)) = .ok t) :
    ∀ move ∈ moves, refusal? iterations move = none := by
  rw [← List.findSome?_eq_none_iff]
  refine Option.eq_none_iff_forall_ne_some.mpr fun e he => ?_
  rw [(joined_eq_error_iff cfg).mpr he] at h
  cases h

theorem isSome_amount?_runOpening (move : Int) :
    (amount? (runOpening cfg move iterations)).isSome = accepted iterations move := by
  rw [accepted]
  cases hrefusal : refusal? iterations move with
  | some e =>
    rw [runOpening_of_refusal hrefusal]
    rfl
  | none =>
    obtain ⟨r, hr, -, -⟩ := exists_run cfg hrefusal
    rw [hr]
    rfl

/-- The calls of the runs of some moves, each as often as it is listed. -/
def totalCalls (cfg : Pruning) (iterations : Int) (moves : List Int) : Int :=
  (moves.map fun move => callsOf (runOpening cfg move iterations)).sum

theorem totalCalls_cons (cfg : Pruning) (iterations move : Int) (rest : List Int) :
    totalCalls cfg iterations (move :: rest)
      = callsOf (runOpening cfg move iterations) + totalCalls cfg iterations rest := by
  rw [totalCalls, List.map_cons, List.sum_cons, ← totalCalls]

theorem totalCalls_concat (cfg : Pruning) (iterations : Int) (rest : List Int) (last : Int) :
    totalCalls cfg iterations (rest ++ [last])
      = totalCalls cfg iterations rest + callsOf (runOpening cfg last iterations) := by
  rw [totalCalls, List.map_append, List.sum_append, ← totalCalls, List.map_singleton,
    List.sum_singleton]

theorem sum_callsOf_runs (cfg : Pruning) (iterations : Int) (moves : List Int) :
    ((moves.map fun move => runOpening cfg move iterations).map callsOf).sum
      = totalCalls cfg iterations moves := by
  rw [List.map_map]
  rfl

/-- Moves of which none is refused all make the calls of one search, as often as asked. -/
theorem totalCalls_of_accepted (cfg : Pruning)
    (h : ∀ move ∈ moves, refusal? iterations move = none) :
    totalCalls cfg iterations moves
      = iterations
        * (moves.map fun move => ((solve cfg (openingBoard move.toNat) move).nodes : Int)).sum := by
  rw [← List.sum_map_mul_left, totalCalls]
  congr 1
  exact List.map_congr_left fun move hmove => callsOf_runOpening (h move hmove)

/-- The runs before the first failure are those of the moves before the first one refused. -/
theorem sum_callsOf_beforeFailure (cfg : Pruning) (iterations : Int) (moves : List Int) :
    ((beforeFailure (moves.map fun move => runOpening cfg move iterations)).map callsOf).sum
      = totalCalls cfg iterations (moves.takeWhile (accepted iterations)) := by
  have hbefore : beforeFailure (moves.map fun move => runOpening cfg move iterations)
      = (moves.takeWhile (accepted iterations)).map
        fun move => runOpening cfg move iterations := by
    rw [beforeFailure, List.takeWhile_map]
    congr 2
    funext move
    exact isSome_amount?_runOpening move
  rw [hbefore, sum_callsOf_runs]

/-- A refused run has no calls, so a sum of calls may leave it out. -/
theorem totalCalls_filter (cfg : Pruning) (iterations : Int) (moves : List Int) :
    totalCalls cfg iterations (moves.filter (accepted iterations))
      = totalCalls cfg iterations moves := by
  induction moves with
  | nil => rfl
  | cons move rest ih =>
    rw [totalCalls_cons, ← ih]
    cases hrefusal : refusal? iterations move with
    | some e =>
      have haccepted : ¬ accepted iterations move = true := by simp [accepted, hrefusal]
      rw [List.filter_cons_of_neg haccepted, runOpening_of_refusal hrefusal, callsOf_error,
        Int.zero_add]
    | none => rw [List.filter_cons_of_pos (accepted_iff.mpr hrefusal), totalCalls_cons]

theorem takeWhile_accepted (h : ∀ move ∈ moves, refusal? iterations move = none) :
    moves.takeWhile (accepted iterations) = moves :=
  List.takeWhile_eq_self_iff.mpr fun move hmove => accepted_iff.mpr (h move hmove)

/-! ## Lists without their repetitions -/

section EraseDups

variable {α : Type} [BEq α] [LawfulBEq α]

theorem eraseDups_concat [DecidableEq α] (xs : List α) (x : α) :
    (xs ++ [x]).eraseDups = if x ∈ xs then xs.eraseDups else xs.eraseDups ++ [x] := by
  rw [List.eraseDups_append]
  split_ifs with hmem
  · simp [List.removeAll, hmem]
  · have hnew : [x].removeAll xs = [x] := by simp [List.removeAll, hmem]
    rw [hnew]
    rfl

theorem nodup_eraseDups (xs : List α) : xs.eraseDups.Nodup := by
  classical
  induction xs using List.reverseRecOn with
  | nil => exact List.nodup_nil
  | append_singleton rest x ih =>
    rw [eraseDups_concat]
    split_ifs with hmem
    · exact ih
    · refine List.nodup_append.mpr ⟨ih, by simp, fun a ha b hb => ?_⟩
      rw [List.mem_singleton.mp hb]
      exact fun heq => hmem (heq ▸ List.mem_eraseDups.mp ha)

theorem eraseDups_sublist (xs : List α) : xs.eraseDups.Sublist xs := by
  classical
  induction xs using List.reverseRecOn with
  | nil => exact List.Sublist.refl _
  | append_singleton rest x ih =>
    rw [eraseDups_concat]
    split_ifs
    · exact ih.trans (List.sublist_append_left rest [x])
    · exact ih.append (List.Sublist.refl _)

end EraseDups

/-! ## Tables of scores -/

namespace Scores

/-- The table that gives every move of a list the score that `f` gives it. -/
def tabulate (f : Int → Option Score) (moves : List Int) : Scores :=
  moves.map fun move => (move, f move)

theorem map_fst_tabulate (f : Int → Option Score) (moves : List Int) :
    (tabulate f moves).map Prod.fst = moves := by
  rw [tabulate, List.map_map]
  exact List.map_id _

theorem lookup_tabulate (f : Int → Option Score) (moves : List Int) (move : Int) :
    (tabulate f moves).lookup move = if move ∈ moves then some (f move) else none := by
  induction moves with
  | nil => rfl
  | cons m rest ih =>
    rw [tabulate, List.map_cons, List.lookup_cons, ← tabulate, ih]
    by_cases hm : move = m
    · simp [hm]
    · simp [hm, beq_false_of_ne hm]

/-- A run of a move that is in the table already changes nothing, another one goes to its end. -/
theorem record_tabulate {f : Int → Option Score} {r : Run} (h : r.score = f r.move)
    (moves : List Int) :
    (tabulate f moves).record r
      = if r.move ∈ moves then tabulate f moves else tabulate f (moves ++ [r.move]) := by
  induction moves with
  | nil => simp [tabulate, record, h]
  | cons m rest ih =>
    rw [tabulate, List.map_cons, record, ← tabulate, ih]
    by_cases hm : m = r.move
    · simp [hm, h, tabulate]
    · by_cases hmem : r.move ∈ rest
      · simp [hm, hmem, tabulate]
      · simp [hm, Ne.symm hm, hmem, tabulate]

/-- **The scores of some runs**, when the score of a run is that of its move. -/
theorem ofRuns_eq {f : Int → Option Score} {runs : List Run} (h : ∀ r ∈ runs, r.score = f r.move) :
    ofRuns runs = tabulate f (runs.map Run.move).eraseDups := by
  induction runs using List.reverseRecOn with
  | nil => rfl
  | append_singleton rest r ih =>
    rw [ofRuns, List.foldl_append, List.foldl_cons, List.foldl_nil, ← ofRuns,
      ih fun r' hr' => h r' (List.mem_append_left _ hr'),
      record_tabulate (h r (List.mem_append_right _ List.mem_cons_self)), List.map_append,
      List.map_singleton, eraseDups_concat]
    simp only [List.mem_eraseDups]
    split_ifs <;> rfl

end Scores

/-! ## Tallies -/

/-- The score of the run of a move, if it has one. -/
def scoreOf (cfg : Pruning) (iterations move : Int) : Option Score :=
  match runOpening cfg move iterations with
  | .ok r => r.score
  | .error _ => none

theorem score_eq_scoreOf {r : Run} (h : runOpening cfg r.move iterations = .ok r) :
    r.score = scoreOf cfg iterations r.move := by
  rw [scoreOf, h]

theorem Executor.ofName_name (executor : Executor) : ofName executor.name = .ok executor := by
  cases executor <;> rfl

theorem Executor.ofName_of_ne {given : String} (hthreads : given ≠ "thread")
    (hprocesses : given ≠ "process") : ofName given = .error (.unknownExecutor given) := by
  have hfind : all.find? (fun e => e.name == given) = none := by
    simp [all, name, hthreads.symm, hprocesses.symm]
  rw [ofName, hfind]

/-- The work of a parallel phase that starts: the caller's own result comes first, and the counter
ends at what all of them add. -/
theorem parallelTally_concat (cfg : Pruning) (executor : Executor) (pooled : List Int)
    (last iterations : Int) (c : Counter) :
    let run := fun move => runOpening cfg move iterations
    let calls := (executor.additions (pooled.map run) (run last)).sum
    parallelTally cfg executor.name (pooled ++ [last]) iterations c
      = (reported (.ofJoined calls iterations) (joined ((last :: pooled).map run)), ⟨calls⟩) := by
  intro run calls
  have hcounter : c.reset.addAll (executor.additions (pooled.map run) (run last)) = ⟨calls⟩ := by
    rw [Counter.addAll_eq, Counter.value_reset, Int.zero_add]
  rw [parallelTally, Executor.ofName_name, List.getLast?_concat, List.dropLast_concat]
  simp only [hcounter, run, List.map_cons]

/-- What a parallel phase has counted, whichever of its runs are refused. -/
theorem sum_additions_runs (cfg : Pruning) (executor : Executor) (pooled : List Int)
    (last iterations : Int) :
    (executor.additions (pooled.map fun move => runOpening cfg move iterations)
        (runOpening cfg last iterations)).sum =
      match executor with
      | .threads => totalCalls cfg iterations ((pooled ++ [last]).filter (accepted iterations))
      | .processes =>
        if accepted iterations last then
          callsOf (runOpening cfg last iterations)
            + totalCalls cfg iterations (pooled.takeWhile (accepted iterations))
        else 0 := by
  rw [sum_additions]
  cases executor with
  | threads => simp only [sum_callsOf_runs, totalCalls_filter, totalCalls_concat]
  | processes =>
    have hbefore := sum_callsOf_beforeFailure cfg iterations (last :: pooled)
    rw [List.map_cons] at hbefore
    simp only [hbefore]
    split_ifs with hlast
    · rw [List.takeWhile_cons_of_pos hlast, totalCalls_cons]
    · rw [List.takeWhile_cons_of_neg hlast]
      rfl

theorem sum_additions_of_accepted (cfg : Pruning) (executor : Executor) {pooled : List Int}
    {last : Int} (h : ∀ move ∈ pooled ++ [last], refusal? iterations move = none) :
    (executor.additions (pooled.map fun move => runOpening cfg move iterations)
      (runOpening cfg last iterations)).sum = totalCalls cfg iterations (pooled ++ [last]) := by
  rw [sum_additions_runs]
  cases executor with
  | threads => exact totalCalls_filter cfg iterations _
  | processes =>
    have hlast := accepted_iff.mpr (h last (by simp))
    have hpooled := takeWhile_accepted fun move hmove => h move (List.mem_append_left _ hmove)
    simp only [if_pos hlast, hpooled, totalCalls_concat]
    exact Int.add_comm _ _

/-- The work of a serial phase: its runs are joined in the order of the moves, and those before the
first refusal are counted. -/
theorem serialTally_eq (cfg : Pruning) (moves : List Int) (iterations : Int) (c : Counter) :
    let calls := totalCalls cfg iterations (moves.takeWhile (accepted iterations))
    serialTally cfg moves iterations c
      = (reported (.inOrder calls iterations)
          (joined (moves.map fun move => runOpening cfg move iterations)), ⟨calls⟩) := by
  intro calls
  rw [serialTally, runInOrder_eq, sum_callsOf_beforeFailure, Counter.value_reset, Int.zero_add]

/-- **A serial phase of which no run is refused.** -/
theorem exists_serialTally (cfg : Pruning)
    (h : ∀ move ∈ moves, refusal? iterations move = none) :
    ∃ t : Tally, (∀ c : Counter, serialTally cfg moves iterations c = (.ok t, ⟨t.nodes⟩))
      ∧ t.nodes = totalCalls cfg iterations moves ∧ t.iterations = iterations
      ∧ t.scores = .tabulate (scoreOf cfg iterations) moves.eraseDups := by
  obtain ⟨runs, hruns, hmoves, hrun⟩ := exists_runs cfg moves h
  refine ⟨.inOrder (totalCalls cfg iterations moves) iterations runs, fun c => ?_, rfl, rfl, ?_⟩
  · rw [serialTally_eq, hruns, joined_map_ok, takeWhile_accepted h]
    rfl
  · rw [← hmoves]
    exact Scores.ofRuns_eq fun r hr => score_eq_scoreOf (hrun r hr)

/-- The runs that a parallel phase reports are sorted by their moves. -/
theorem pairwise_sorted (runs : List Run) :
    ((runs.mergeSort fun a b => decide (a.move ≤ b.move)).map Run.move).Pairwise (· ≤ ·) := by
  rw [List.pairwise_map]
  refine (List.pairwise_mergeSort (fun a b c hab hbc => ?_) (fun a b => ?_) runs).imp
    of_decide_eq_true
  · simp only [decide_eq_true_eq] at hab hbc ⊢
    exact Int.le_trans hab hbc
  · simp only [Bool.or_eq_true, decide_eq_true_eq]
    exact Int.le_total a.move b.move

/-- **A parallel phase of which no run is refused.**  Its scores are sorted. -/
theorem exists_parallelTally (cfg : Pruning) (executor : Executor) {pooled : List Int} {last : Int}
    (h : ∀ move ∈ pooled ++ [last], refusal? iterations move = none) :
    ∃ (t : Tally) (order : List Int),
      (∀ c : Counter,
          parallelTally cfg executor.name (pooled ++ [last]) iterations c = (.ok t, ⟨t.nodes⟩))
        ∧ t.nodes = totalCalls cfg iterations (pooled ++ [last]) ∧ t.iterations = iterations
        ∧ t.scores = .tabulate (scoreOf cfg iterations) order ∧ order.Pairwise (· < ·)
        ∧ ∀ move, move ∈ order ↔ move ∈ pooled ++ [last] := by
  obtain ⟨runs, hruns, hmoves, hrun⟩ := exists_runs cfg (last :: pooled) fun move hmove =>
    h move (by simpa [or_comm] using hmove)
  have hcalls := sum_additions_of_accepted cfg executor h
  let sorted := runs.mergeSort fun a b => decide (a.move ≤ b.move)
  have hperm : sorted.Perm runs := List.mergeSort_perm _ _
  have hsorted : (sorted.map Run.move).Pairwise (· ≤ ·) := pairwise_sorted runs
  refine ⟨.ofJoined (totalCalls cfg iterations (pooled ++ [last])) iterations runs,
    (sorted.map Run.move).eraseDups, fun c => ?_, rfl, rfl, ?_, ?_, fun move => ?_⟩
  · rw [parallelTally_concat, hruns, joined_map_ok, hcalls]
    rfl
  · exact Scores.ofRuns_eq fun r hr => score_eq_scoreOf (hrun r (hperm.mem_iff.mp hr))
  · refine ((hsorted.sublist (eraseDups_sublist _)).and (nodup_eraseDups _)).imp fun hab => ?_
    exact Int.lt_iff_le_and_ne.mpr hab
  · rw [List.mem_eraseDups, (hperm.map Run.move).mem_iff, hmoves]
    simp [or_comm]

theorem accepted_of_serialTally {c after : Counter} {t : Tally}
    (h : serialTally cfg moves iterations c = (.ok t, after)) :
    ∀ move ∈ moves, refusal? iterations move = none := by
  rw [serialTally_eq] at h
  exact accepted_of_reported (congrArg Prod.fst h)

/-- A parallel phase that has a result is of a known kind, and it has openings. -/
theorem accepted_of_parallelTally {executorName : String} {c after : Counter} {t : Tally}
    (h : parallelTally cfg executorName moves iterations c = (.ok t, after)) :
    ∃ (executor : Executor) (pooled : List Int) (last : Int), executorName = executor.name
      ∧ moves = pooled ++ [last] ∧ ∀ move ∈ moves, refusal? iterations move = none := by
  obtain ⟨executor, rfl⟩ : ∃ executor : Executor, executorName = executor.name := by
    by_contra hno
    have hunknown := Executor.ofName_of_ne (fun heq => hno ⟨.threads, heq⟩)
      (fun heq => hno ⟨.processes, heq⟩)
    rw [parallelTally, hunknown] at h
    cases h
  rcases List.eq_nil_or_concat' moves with rfl | ⟨pooled, last, rfl⟩
  · rw [parallelTally, Executor.ofName_name] at h
    cases h
  · rw [parallelTally_concat] at h
    have haccepted := accepted_of_reported (congrArg Prod.fst h)
    exact ⟨executor, pooled, last, rfl, rfl, fun move hmove =>
      haccepted move (by simpa [or_comm] using hmove)⟩

end Noughts
