import Noughts.Phase

/-!
# Schedules of a parallel phase

In a parallel phase the workers and the caller go on side by side, and nobody says who is first.
`parallelTally` works with one order; here is what may happen, step by step.

* A worker finishes its run at any time.  If it shares the caller's memory, it adds its calls to
  the counter then.
* The caller does its own run and adds its calls, and then joins the workers in order, each when
  it has finished.  If the workers have a memory of their own, the caller adds their calls as it
  joins them.
* A failure, the caller's own or that of a worker it joins, makes the caller leave.  It still waits
  until every worker has finished.

`Step` is one step, `Steps` any sequence of them, and `State.result?` what the phase has come to
when there is nothing left to wait for.  `CanEnd` says what a phase can come to, over all orders of
its steps.
-/

set_option autoImplicit false

namespace Noughts.Schedule

/-- The runs of a phase that do not belong to the caller, the caller's own, and who adds what. -/
structure Pool where
  executor : Executor
  pooled : List (Except RunError Run)
  own : Except RunError Run

/-- The pool of a phase over some openings and a last one. -/
def Pool.ofMoves (cfg : Pruning) (executor : Executor) (pooled : List Int) (last iterations : Int) :
    Pool where
  executor := executor
  pooled := pooled.map fun move => runOpening cfg move iterations
  own := runOpening cfg last iterations

/-- The pool that a phase starts, if it can start one. -/
def Pool.start? (cfg : Pruning) (executorName : String) (moves : List Int) (iterations : Int) :
    Except PhaseError Pool :=
  match Executor.ofName executorName with
  | .error e => .error e
  | .ok executor =>
    match moves.getLast? with
    | none => .error .noMoves
    | some last => .ok (.ofMoves cfg executor moves.dropLast last iterations)

/-- Where the caller is. -/
inductive Caller where
  /-- It has not finished its own run. -/
  | working
  /-- It has the results of its own run and of the first `next` workers. -/
  | joining (next : Nat) (runs : List Run)
  /-- It has met a failure. -/
  | leaving (e : RunError)

/-- A phase under way. -/
structure State where
  counter : Counter
  /-- Which workers have finished. -/
  finished : List Bool
  caller : Caller

/-- A phase that has just been started. -/
def State.start (p : Pool) (c : Counter) : State :=
  ⟨c.reset, List.replicate p.pooled.length false, .working⟩

/-- The counter with the calls of a run, if it was not refused. -/
def addRun (c : Counter) : Except RunError Run → Counter
  | .ok r => c.add r.nodes
  | .error _ => c

/-- The caller after one more result. -/
def Caller.take (next : Nat) (runs : List Run) : Except RunError Run → Caller
  | .ok r => .joining next (runs ++ [r])
  | .error e => .leaving e

/-- One step of a phase. -/
inductive Step (p : Pool) : State → State → Prop
  /-- A worker finishes its run. -/
  | finish {s : State} {i : Nat} {r : Except RunError Run} (hr : p.pooled[i]? = some r)
      (hrunning : s.finished[i]? = some false) :
      Step p s { s with
        counter := if p.executor = .threads then addRun s.counter r else s.counter
        finished := s.finished.set i true }
  /-- The caller finishes its own run. -/
  | own {s : State} (hcaller : s.caller = .working) :
      Step p s { s with counter := addRun s.counter p.own, caller := Caller.take 0 [] p.own }
  /-- The caller joins the next worker. -/
  | join {s : State} {next : Nat} {runs : List Run} {r : Except RunError Run}
      (hcaller : s.caller = .joining next runs) (hr : p.pooled[next]? = some r)
      (hfinished : s.finished[next]? = some true) :
      Step p s { s with
        counter := if p.executor = .processes then addRun s.counter r else s.counter
        caller := Caller.take (next + 1) runs r }

/-- Any number of steps. -/
inductive Steps (p : Pool) : State → State → Prop
  | refl (s : State) : Steps p s s
  | tail {s t u : State} (h : Steps p s t) (hstep : Step p t u) : Steps p s u

/-- What a phase has come to, when every worker has finished and the caller waits for nothing. -/
def State.result? (s : State) : Option (Except RunError (List Run)) :=
  if s.finished.all id then
    match s.caller with
    | .working => none
    | .joining next runs => if next = s.finished.length then some (.ok runs) else none
    | .leaving e => some (.error e)
  else none

/-- **What a parallel phase can come to**, and the counter it can leave: a phase that cannot start
leaves it alone, and one that starts may take its steps in any order. -/
inductive CanEnd (cfg : Pruning) (executorName : String) (moves : List Int) (iterations : Int)
    (before : Counter) : Except PhaseError Tally → Counter → Prop
  | refused {e : PhaseError} (h : Pool.start? cfg executorName moves iterations = .error e) :
      CanEnd cfg executorName moves iterations before (.error e) before
  | ended {p : Pool} {s : State} {r : Except RunError (List Run)}
      (h : Pool.start? cfg executorName moves iterations = .ok p)
      (hsteps : Steps p (.start p before) s) (hresult : s.result? = some r) :
      CanEnd cfg executorName moves iterations before
        (reported (.ofJoined s.counter.value iterations) r) s.counter

end Noughts.Schedule
