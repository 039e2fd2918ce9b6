import Noughts.Phase.Schedule
import Noughts.Proofs.Tallies

/-!
# Every schedule of a parallel phase comes to the same

In a parallel phase workers finish when they like, and the caller joins them one by one.  What the
phase comes to does not depend on who is first: it is what `parallelTally` says, and so is the
counter it leaves (`canEnd_iff`).

* `Reached` is what holds all along a schedule.  The runs that the caller has got so far account for
  where it stands (`Standing`), and the counter has exactly the calls that were added up to now:
  each finished worker's and the caller's own if memory is shared, those of the runs it has got if
  it is not.
* No schedule gets stuck, and none goes on for ever: as long as there is no result there is a step
  (`Reached.exists_step`), and every step leaves less to do (`remaining_lt`).
-/

set_option autoImplicit false

namespace Noughts.Schedule

variable {p : Pool} {s t : State} {runs : List Run}

/-! ## What holds all along -/

/-- The calls of the workers that have finished. -/
def finishedCalls : List Bool → List (Except RunError Run) → Int
  | true :: finished, r :: results => callsOf r + finishedCalls finished results
  | false :: finished, _ :: results => finishedCalls finished results
  | _, _ => 0

theorem finishedCalls_start (results : List (Except RunError Run)) :
    finishedCalls (List.replicate results.length false) results = 0 := by
  induction results with
  | nil => rfl
  | cons r results ih => exact ih

/-- One more worker has finished. -/
theorem finishedCalls_set {finished : List Bool} {results : List (Except RunError Run)} {i : Nat}
    {r : Except RunError Run} (hr : results[i]? = some r) (hi : finished[i]? = some false) :
    finishedCalls (finished.set i true) results = finishedCalls finished results + callsOf r := by
  induction finished generalizing results i with
  | nil => cases hi
  | cons b finished ih =>
    cases results with
    | nil => cases hr
    | cons r' results =>
      cases i with
      | zero =>
        cases hr
        cases hi
        rw [List.set_cons_zero, finishedCalls, finishedCalls, Int.add_comm]
      | succ i =>
        rw [List.getElem?_cons_succ] at hr hi
        rw [List.set_cons_succ]
        cases b with
        | true => rw [finishedCalls, finishedCalls, ih hr hi, Int.add_assoc]
        | false => rw [finishedCalls, finishedCalls, ih hr hi]

/-- All workers have finished. -/
theorem finishedCalls_all {finished : List Bool} {results : List (Except RunError Run)}
    (hall : finished.all id = true) (hlength : finished.length = results.length) :
    finishedCalls finished results = (results.map callsOf).sum := by
  induction finished generalizing results with
  | nil =>
    rw [List.length_nil] at hlength
    rw [List.eq_nil_of_length_eq_zero hlength.symm]
    rfl
  | cons b finished ih =>
    cases results with
    | nil => cases hlength
    | cons r results =>
      rw [List.all_cons, Bool.and_eq_true] at hall
      obtain ⟨rfl, hall⟩ := hall
      rw [finishedCalls, ih hall (Nat.succ.inj hlength), List.map_cons, List.sum_cons]

/-- How the runs that the caller has got so far account for where it stands. -/
inductive Standing (p : Pool) : Caller → List Run → Prop
  | working : Standing p .working []
  | joining {next : Nat} {runs : List Run} (hnext : next ≤ p.pooled.length)
      (h : p.own :: p.pooled.take next = runs.map .ok) : Standing p (.joining next runs) runs
  | leaving {e : RunError} {runs : List Run} {rest : List (Except RunError Run)}
      (h : p.own :: p.pooled = runs.map .ok ++ .error e :: rest) : Standing p (.leaving e) runs

/-- The calls of some runs. -/
def nodesOf (runs : List Run) : Int := (runs.map fun r => (r.nodes : Int)).sum

theorem sum_callsOf_map_ok (runs : List Run) : ((runs.map .ok).map callsOf).sum = nodesOf runs := by
  rw [List.map_map]
  rfl

/-- The calls that were added up to now, when these workers have finished and the caller has got
these runs. -/
def added (p : Pool) (finished : List Bool) (runs : List Run) : Int :=
  match p.executor with
  | .threads => finishedCalls finished p.pooled + nodesOf (runs.take 1)
  | .processes => nodesOf runs

/-- What holds of a phase that is under way, with the runs that the caller has got. -/
structure Reached (p : Pool) (s : State) (runs : List Run) : Prop where
  length : s.finished.length = p.pooled.length
  standing : Standing p s.caller runs
  counter : s.counter.value = added p s.finished runs

theorem Reached.start (p : Pool) (c : Counter) : Reached p (.start p c) [] where
  length := List.length_replicate
  standing := .working
  counter := by
    rw [State.start, added]
    cases p.executor with
    | threads =>
      rw [finishedCalls_start]
      rfl
    | processes => rfl

theorem value_addRun (c : Counter) (r : Except RunError Run) :
    (addRun c r).value = c.value + callsOf r := by
  cases r with
  | ok r => rfl
  | error e => exact (Int.add_zero _).symm

/-! ## One step -/

namespace Reached

/-- A worker finishes. -/
theorem finish (h : Reached p s runs) {i : Nat} {r : Except RunError Run}
    (hr : p.pooled[i]? = some r) (hrunning : s.finished[i]? = some false) :
    Reached p { s with
      counter := if p.executor = .threads then addRun s.counter r else s.counter
      finished := s.finished.set i true } runs where
  length := by rw [List.length_set, h.length]
  standing := h.standing
  counter := by
    have hcounter := h.counter
    rw [added] at hcounter ⊢
    cases hexecutor : p.executor with
    | threads =>
      rw [hexecutor] at hcounter
      simp only [if_true, value_addRun, hcounter, finishedCalls_set hr hrunning]
      omega
    | processes =>
      rw [hexecutor] at hcounter
      simpa using hcounter

/-- The caller finishes its own run. -/
theorem own (h : Reached p s runs) (hcaller : s.caller = .working) :
    ∃ runs', Reached p
      { s with counter := addRun s.counter p.own, caller := Caller.take 0 [] p.own } runs' := by
  have hruns : runs = [] := by
    have hstanding := h.standing
    rw [hcaller] at hstanding
    cases hstanding
    rfl
  subst hruns
  have hcounter := h.counter
  rw [added] at hcounter
  cases hown : p.own with
  | ok r =>
    refine ⟨[r], h.length, .joining (Nat.zero_le _) (by simp [hown]), ?_⟩
    rw [value_addRun, hcounter, added]
    cases p.executor <;> simp [nodesOf]
  | error e =>
    have hgot : p.own :: p.pooled = ([] : List Run).map .ok ++ .error e :: p.pooled := by
      rw [hown]
      rfl
    refine ⟨[], h.length, .leaving hgot, ?_⟩
    rw [value_addRun, hcounter, added, callsOf_error, Int.add_zero]

/-- The caller joins the next worker. -/
theorem join (h : Reached p s runs) {next : Nat} {runs' : List Run} {r : Except RunError Run}
    (hcaller : s.caller = .joining next runs') (hr : p.pooled[next]? = some r) :
    ∃ runs'', Reached p { s with
      counter := if p.executor = .processes then addRun s.counter r else s.counter
      caller := Caller.take (next + 1) runs' r } runs'' := by
  have hstanding := h.standing
  rw [hcaller] at hstanding
  cases hstanding with
  | joining hnext hgot =>
    obtain ⟨hlt, hget⟩ := List.getElem?_eq_some_iff.mp hr
    have hcounter := h.counter
    rw [added] at hcounter
    -- The caller's own run comes first among those it has got, so that one more changes nothing
    -- about what it has added itself where memory is shared.
    obtain ⟨first, others, rfl⟩ : ∃ first others, runs = first :: others := by
      cases runs with
      | nil => cases hgot
      | cons first others => exact ⟨first, others, rfl⟩
    cases r with
    | ok r =>
      refine ⟨first :: others ++ [r], h.length, .joining hlt ?_, ?_⟩
      · rw [List.take_succ_eq_append_getElem hlt, hget, ← List.cons_append, hgot, List.map_append]
        rfl
      · rw [added]
        cases hexecutor : p.executor with
        | threads =>
          rw [hexecutor] at hcounter
          simpa using hcounter
        | processes =>
          rw [hexecutor] at hcounter
          simp only [if_true, value_addRun, hcounter, callsOf_ok, nodesOf, List.map_append,
            List.sum_append, List.map_singleton, List.sum_singleton]
    | error e =>
      have hmet : p.own :: p.pooled
          = (first :: others).map .ok ++ .error e :: p.pooled.drop (next + 1) := by
        rw [← hgot, List.cons_append, ← hget, List.getElem_cons_drop, List.take_append_drop]
      refine ⟨first :: others, h.length, .leaving hmet, ?_⟩
      rw [added]
      cases hexecutor : p.executor with
      | threads =>
        rw [hexecutor] at hcounter
        simpa using hcounter
      | processes =>
        rw [hexecutor] at hcounter
        simp only [if_true, value_addRun, hcounter, callsOf_error, Int.add_zero]

theorem step (h : Reached p s runs) (hstep : Step p s t) : ∃ runs', Reached p t runs' := by
  cases hstep with
  | finish hr hrunning => exact ⟨runs, h.finish hr hrunning⟩
  | own hcaller => exact h.own hcaller
  | join hcaller hr hfinished => exact h.join hcaller hr

theorem ofSteps {c : Counter} (hsteps : Steps p (.start p c) s) : ∃ runs, Reached p s runs := by
  induction hsteps with
  | refl => exact ⟨[], start p c⟩
  | tail _ hstep ih =>
    obtain ⟨runs, h⟩ := ih
    exact h.step hstep

end Reached

/-! ## The end -/

theorem State.result?_of_running (h : s.finished.all id = false) : s.result? = none := by
  rw [result?, h]
  rfl

/-- A worker that runs, if there is any. -/
theorem exists_running (h : s.finished.all id = false) :
    ∃ i : Nat, s.finished[i]? = some false := by
  obtain ⟨b, hb, hfalse⟩ := List.all_eq_false.mp h
  rw [id_eq, Bool.not_eq_true] at hfalse
  exact List.mem_iff_getElem?.mp (hfalse ▸ hb)

namespace Reached

/-- **What a schedule comes to** when there is nothing left to wait for: the results joined in
order, the caller's own first, and a counter with all that is to be added. -/
theorem result (h : Reached p s runs) {r : Except RunError (List Run)} (hr : s.result? = some r) :
    r = joined (p.own :: p.pooled)
      ∧ s.counter.value = (p.executor.additions p.pooled p.own).sum := by
  cases hall : s.finished.all id with
  | false =>
    rw [State.result?_of_running hall] at hr
    cases hr
  | true =>
    have hstanding := h.standing
    have hcounter := h.counter
    have hworkers := finishedCalls_all hall h.length
    rw [State.result?, if_pos hall] at hr
    rw [sum_additions]
    rw [added, hworkers] at hcounter
    cases hcaller : s.caller with
    | working =>
      rw [hcaller] at hr
      cases hr
    | joining next got =>
      rw [hcaller] at hr hstanding
      cases hstanding with
      | joining hnext hgot =>
        simp only [Option.ite_none_right_eq_some, Option.some.injEq] at hr
        obtain ⟨hlast, rfl⟩ := hr
        rw [hlast, h.length, List.take_length] at hgot
        rw [hgot, joined_map_ok, beforeFailure_map_ok, sum_callsOf_map_ok]
        refine ⟨rfl, hcounter.trans ?_⟩
        cases p.executor with
        | processes => rfl
        | threads =>
          have hown : nodesOf (runs.take 1) = callsOf p.own := by
            rw [← sum_callsOf_map_ok, List.map_take, ← hgot]
            simp
          simp only [hown]
    | leaving e =>
      rw [hcaller] at hr hstanding
      cases hr
      cases hstanding with
      | leaving hgot =>
        rw [hgot, joined_of_failure, beforeFailure_of_failure, sum_callsOf_map_ok]
        refine ⟨rfl, hcounter.trans ?_⟩
        cases p.executor with
        | processes => rfl
        | threads =>
          -- The caller has got its own run, unless that is the one that failed.
          have hown : nodesOf (runs.take 1) = callsOf p.own := by
            cases runs with
            | nil =>
              rw [(List.cons.inj hgot).1]
              rfl
            | cons first others =>
              rw [(List.cons.inj hgot).1]
              simp [nodesOf]
          simp only [hown]

/-- **No schedule gets stuck**: as long as there is no result, somebody has something to do. -/
theorem exists_step (h : Reached p s runs) (hr : s.result? = none) : ∃ t, Step p s t := by
  cases hall : s.finished.all id with
  | false =>
    obtain ⟨i, hi⟩ := exists_running hall
    have hlt := (List.getElem?_eq_some_iff.mp hi).1
    rw [h.length] at hlt
    exact ⟨_, .finish (List.getElem?_eq_getElem hlt) hi⟩
  | true =>
    have hstanding := h.standing
    rw [State.result?, if_pos hall] at hr
    cases hcaller : s.caller with
    | working => exact ⟨_, .own hcaller⟩
    | leaving e => simp [hcaller] at hr
    | joining next got =>
      rw [hcaller] at hr hstanding
      cases hstanding with
      | joining hnext hgot =>
        have hlt : next < p.pooled.length := by
          refine Nat.lt_of_le_of_ne hnext fun heq => ?_
          simp [h.length, heq] at hr
        have hlt' : next < s.finished.length := by rw [h.length]; exact hlt
        have hfinished : s.finished[next] = true :=
          List.all_eq_true.mp hall _ (List.getElem_mem hlt')
        exact ⟨_, .join hcaller (List.getElem?_eq_getElem hlt)
          (by rw [List.getElem?_eq_getElem hlt', hfinished])⟩

end Reached

/-- What is left to do: the workers that run, and the results that the caller waits for. -/
def remaining (p : Pool) (s : State) : Nat :=
  s.finished.count false +
    match s.caller with
    | .working => p.pooled.length + 1
    | .joining next _ => p.pooled.length - next
    | .leaving _ => 0

/-- **Every step leaves less to do.** -/
theorem remaining_lt (hstep : Step p s t) : remaining p t < remaining p s := by
  cases hstep with
  | @finish i r hr hrunning =>
    obtain ⟨hlt, hget⟩ := List.getElem?_eq_some_iff.mp hrunning
    have hpos : 0 < s.finished.count false :=
      List.count_pos_iff.mpr (hget ▸ List.getElem_mem hlt)
    have hcount : (s.finished.set i true).count false + 1 = s.finished.count false := by
      rw [List.count_set hlt, hget]
      simp
      omega
    simp only [remaining]
    omega
  | own hcaller =>
    simp only [remaining, hcaller]
    cases p.own <;> simp [Caller.take]
  | @join next got r hcaller hr hfinished =>
    have hlt := (List.getElem?_eq_some_iff.mp hr).1
    simp only [remaining, hcaller]
    cases r <;> simp [Caller.take] <;> omega

theorem Steps.trans {u : State} (h : Steps p s t) (h' : Steps p t u) : Steps p s u := by
  induction h' with
  | refl => exact h
  | tail _ hstep ih => exact ih.tail hstep

/-- **However far a phase has got, it can be brought to its end.** -/
theorem exists_result {c : Counter} (hsteps : Steps p (.start p c) s) :
    ∃ t r, Steps p s t ∧ t.result? = some r := by
  induction hn : remaining p s using Nat.strong_induction_on generalizing s with
  | _ n ih =>
    cases hr : s.result? with
    | some r => exact ⟨s, r, .refl s, hr⟩
    | none =>
      obtain ⟨runs, hreached⟩ := Reached.ofSteps hsteps
      obtain ⟨t, hstep⟩ := hreached.exists_step hr
      obtain ⟨u, r, hu, hresult⟩ := ih (remaining p t) (hn ▸ remaining_lt hstep)
        (hsteps.tail hstep) rfl
      exact ⟨u, r, ((Steps.refl s).tail hstep).trans hu, hresult⟩

/-! ## The phase as a whole -/

/-- The work of a parallel phase, by way of the pool that it starts. -/
theorem parallelTally_eq (cfg : Pruning) (executorName : String) (moves : List Int)
    (iterations : Int) (c : Counter) :
    parallelTally cfg executorName moves iterations c =
      match Pool.start? cfg executorName moves iterations with
      | .error e => (.error e, c)
      | .ok p =>
        let after := c.reset.addAll (p.executor.additions p.pooled p.own)
        (reported (.ofJoined after.value iterations) (joined (p.own :: p.pooled)), after) := by
  rw [parallelTally, Pool.start?]
  cases Executor.ofName executorName with
  | error e => rfl
  | ok executor =>
    cases moves.getLast? with
    | none => rfl
    | some last => rfl

variable {cfg : Pruning} {executorName : String} {moves : List Int} {iterations : Int}
  {c after : Counter}

/-- **Every schedule comes to the work of the phase.** -/
theorem parallelTally_of_schedule (h : Pool.start? cfg executorName moves iterations = .ok p)
    (hsteps : Steps p (.start p c) s) {r : Except RunError (List Run)}
    (hr : s.result? = some r) :
    parallelTally cfg executorName moves iterations c
      = (reported (.ofJoined s.counter.value iterations) r, s.counter) := by
  obtain ⟨runs, hreached⟩ := Reached.ofSteps hsteps
  obtain ⟨rfl, hvalue⟩ := hreached.result hr
  have hcounter : c.reset.addAll (p.executor.additions p.pooled p.own) = s.counter := by
    rw [Counter.addAll_eq, Counter.value_reset, Int.zero_add, ← hvalue]
  rw [parallelTally_eq, h]
  simp only [hcounter]

/-- **What a parallel phase can come to is one thing**, whatever the order of its steps. -/
theorem canEnd_iff {result : Except PhaseError Tally} :
    CanEnd cfg executorName moves iterations c result after
      ↔ parallelTally cfg executorName moves iterations c = (result, after) := by
  constructor
  · intro h
    cases h with
    | refused h => rw [parallelTally_eq, h]
    | ended h hsteps hresult => exact parallelTally_of_schedule h hsteps hresult
  · intro h
    cases hstart : Pool.start? cfg executorName moves iterations with
    | error e =>
      rw [parallelTally_eq, hstart] at h
      cases h
      exact .refused hstart
    | ok p =>
      obtain ⟨s, r, hsteps, hresult⟩ := exists_result (Steps.refl (State.start p c))
      rw [parallelTally_of_schedule hstart hsteps hresult] at h
      cases h
      exact .ended hstart hsteps hresult

end Noughts.Schedule
