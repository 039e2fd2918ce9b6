import Noughts.Opening
import Noughts.Clock

/-!
# Phases

A phase resets the shared counter, runs every opening of a list, waits for all of them, and reads
the counter once.

* In the **serial** phase the runs follow one another, each adding its calls to the counter.
* In the **parallel** phase all but the last run go to a pool of workers, and the last one is done
  by the caller meanwhile.  Workers that share memory (`Executor.threads`) add their calls
  themselves, and they all finish, whatever happens to the others.  Workers that do not
  (`Executor.processes`) hand their totals to the caller, who adds them in order while joining.

In both, the caller's own failure is the one that is reported; otherwise it is that of the first
worker in order.  `Executor.additions` says which totals reach the counter, and in which order
this implementation adds them.

A phase's *work* (`Tally`) and its *time* are kept apart: `Tally` is what the runs determine, and
`Phase` puts the two clock readings around it.
-/

set_option autoImplicit false

namespace Noughts

/-- How the workers of a parallel phase are kept. -/
inductive Executor where
  /-- Workers that share the caller's memory. -/
  | threads
  /-- Workers with a memory of their own. -/
  | processes
  deriving DecidableEq, Repr

/-- Why a phase ends without a result. -/
inductive PhaseError where
  /-- There is no such kind of worker. -/
  | unknownExecutor (given : String)
  /-- There is nothing to run. -/
  | noMoves
  /-- One of the runs failed. -/
  | run (e : RunError)
  deriving DecidableEq, Repr

/-- The wording of a phase error. -/
def PhaseError.message : PhaseError → String
  | .unknownExecutor given => "Unknown executor: " ++ given
  | .noMoves => "At least one opening move is required"
  | .run e => e.message

/-- Is the phase refused before it starts, so that neither the counter nor the clock is touched? -/
def PhaseError.isRefusal : PhaseError → Bool
  | .unknownExecutor _ => true
  | .noMoves => true
  | .run _ => false

namespace Executor

/-- Both kinds. -/
def all : List Executor := [threads, processes]

/-- The name a kind of worker goes by. -/
def name : Executor → String
  | threads => "thread"
  | processes => "process"

/-- The kind of worker with the given name. -/
def ofName (given : String) : Except PhaseError Executor :=
  match all.find? fun e => e.name == given with
  | some e => .ok e
  | none => .error (.unknownExecutor given)

/-- What one run has to add to the counter. -/
def amount? : Except RunError Run → Option Int
  | .ok r => some r.nodes
  | .error _ => none

/-- The totals that reach the counter.  Shared memory: every run that is not refused.  Separate
memories: the caller's run and then the workers' in order, up to the first that is refused. -/
def additions (executor : Executor) (pooled : List (Except RunError Run))
    (own : Except RunError Run) : List Int :=
  match executor with
  | threads => (pooled ++ [own]).filterMap amount?
  | processes => ((own :: pooled).takeWhile fun r => (amount? r).isSome).filterMap amount?

end Executor

/-! ## The work of a phase -/

/-- The score of each opening, a repeated opening once and at its first place. -/
abbrev Scores := List (Int × Option Score)

/-- Records the score of a run. -/
def Scores.record : Scores → Run → Scores
  | [], r => [(r.move, r.score)]
  | (move, score) :: rest, r =>
    if move = r.move then (move, r.score) :: rest else (move, score) :: Scores.record rest r

/-- The scores of a list of runs. -/
def Scores.ofRuns (runs : List Run) : Scores :=
  runs.foldl Scores.record []

/-- What the runs of a phase come to. -/
structure Tally where
  /-- The counter, read when all runs are done. -/
  nodes : Int
  iterations : Int
  scores : Scores
  /-- What the runs logged. -/
  log : Log := []
  deriving Repr

/-- The runs one after the other, each adding to the counter; the first refusal ends them. -/
def runInOrder (cfg : Pruning) (iterations : Int) :
    List Int → Counter → Except RunError (List Run) × Counter
  | [], c => (.ok [], c)
  | move :: rest, c =>
    match c.runOpening cfg move iterations with
    | (.error e, c) => (.error e, c)
    | (.ok r, c) =>
      match runInOrder cfg iterations rest c with
      | (.error e, c) => (.error e, c)
      | (.ok rs, c) => (.ok (r :: rs), c)

/-- What a phase makes of its runs, if none of them failed. -/
def reported (tally : List Run → Tally) : Except RunError (List Run) → Except PhaseError Tally
  | .error e => .error (.run e)
  | .ok runs => .ok (tally runs)

/-- What a serial phase reports of its runs, when the counter stands at `nodes`: their scores come
in the order in which the moves come up. -/
def Tally.inOrder (nodes iterations : Int) (runs : List Run) : Tally where
  nodes := nodes
  iterations := iterations
  scores := Scores.ofRuns runs
  log := runs.flatMap Run.log

/-- **The serial phase**: the runs in the order of the moves. -/
def serialTally (cfg : Pruning) (moves : List Int) (iterations : Int) (c : Counter) :
    Except PhaseError Tally × Counter :=
  let (result, c) := runInOrder cfg iterations moves c.reset
  (reported (.inOrder c.value iterations) result, c)

/-- The results of a list of runs, or the first failure. -/
def joined : List (Except RunError Run) → Except RunError (List Run)
  | [] => .ok []
  | .error e :: _ => .error e
  | .ok r :: rest =>
    match joined rest with
    | .error e => .error e
    | .ok rs => .ok (r :: rs)

/-- What a parallel phase reports of its runs, when all of them are joined and the counter stands at
`nodes`: their scores come in the order of the moves. -/
def Tally.ofJoined (nodes iterations : Int) (runs : List Run) : Tally where
  nodes := nodes
  iterations := iterations
  scores := Scores.ofRuns (runs.mergeSort fun a b => decide (a.move ≤ b.move))
  log := runs.flatMap Run.log

/-- **The parallel phase**: all but the last move on workers, the last one on the caller.  A phase
that cannot start leaves the counter alone. -/
def parallelTally (cfg : Pruning) (executorName : String) (moves : List Int) (iterations : Int)
    (c : Counter) : Except PhaseError Tally × Counter :=
  match Executor.ofName executorName with
  | .error e => (.error e, c)
  | .ok executor =>
    match moves.getLast? with
    | none => (.error .noMoves, c)
    | some last =>
      let pooled := moves.dropLast.map fun move => runOpening cfg move iterations
      let own := runOpening cfg last iterations
      let c := c.reset.addAll (executor.additions pooled own)
      (reported (.ofJoined c.value iterations) (joined (own :: pooled)), c)

/-! ## Timing -/

/-- A phase that has been run and timed. -/
structure Phase where
  name : String
  /-- Seconds between the reading before the first run and the one after the last. -/
  elapsed : Float
  nodes : Int
  iterations : Int
  scores : Scores

/-- The two kinds of phase. -/
inductive PhaseKind where
  | serial
  | parallel
  deriving DecidableEq, Repr

/-- The name a kind of phase goes by. -/
def PhaseKind.name : PhaseKind → String
  | .serial => "serial"
  | .parallel => "parallel"

/-- The phase that some work makes when it took `elapsed` seconds. -/
def Tally.timed (t : Tally) (kind : PhaseKind) (elapsed : Float) : Phase :=
  ⟨kind.name, elapsed, t.nodes, t.iterations, t.scores⟩

/-- What a phase changes while it runs. -/
structure Bench where
  counter : Counter := {}
  clock : Clock := []
  log : Log := []

/-- Runs a phase's work between two readings of the clock.  A phase that is refused comes to neither
of them, and one whose runs fail not to the second. -/
def Bench.timed (s : Bench) (kind : PhaseKind)
    (work : Counter → Except PhaseError Tally × Counter) : Except PhaseError Phase × Bench :=
  let (start, running) := s.clock.tick
  match work s.counter with
  | (.error e, counter) =>
    (.error e, { s with counter, clock := if e.isRefusal then s.clock else running })
  | (.ok tally, counter) =>
    let (finish, clock) := running.tick
    (.ok (tally.timed kind (finish - start)), { counter, clock, log := s.log ++ tally.log })

/-- The serial phase, timed. -/
def Bench.serial (s : Bench) (cfg : Pruning) (moves : List Int) (iterations : Int) :
    Except PhaseError Phase × Bench :=
  s.timed .serial (serialTally cfg moves iterations)

/-- The parallel phase, timed. -/
def Bench.parallel (s : Bench) (cfg : Pruning) (executorName : String) (moves : List Int)
    (iterations : Int) : Except PhaseError Phase × Bench :=
  s.timed .parallel (parallelTally cfg executorName moves iterations)

end Noughts
