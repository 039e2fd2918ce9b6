import Noughts.Phase
import Noughts.Number.FixedPlaces
import Noughts.Setting
import Noughts.Statistics.Summary

/-!
# The benchmark

The three openings that stand for all nine, searched in parallel and then one after the other, as
often as asked.  Every phase resets the one counter, so that its node total is its own.

An iteration count that is missing or not positive means one, and so does a repeat count that is
not positive.
-/

set_option autoImplicit false

namespace Noughts

/-- A corner, an edge and the centre. -/
def openingMoves : List Int := [0, 1, 4]

/-- The iteration count that stands for a missing one. -/
def defaultIterations : Int := 1

/-- The platforms on which workers cannot run at the same time. -/
def singleThreadedPlatforms : List String := ["RVOS", "ARMOS"]

/-- The iteration count that a request stands for. -/
def normalIterations : Option Int → Int
  | none => defaultIterations
  | some n => if n ≤ 0 then defaultIterations else n

/-- Can phases run in parallel on the given platform? -/
def parallelSupported (platform : Option String) : Bool :=
  !singleThreadedPlatforms.contains (platform.getD "")

/-- What a benchmark is to run. -/
structure BenchConfig where
  iterations : Option Int := some defaultIterations
  parallel : Bool := true
  /-- The kind of worker, by name.  It only matters to parallel phases. -/
  executor : Setting String := .value Executor.threads.name
  repetitions : Int := 1
  pruning : Pruning := {}
  moves : List Int := openingMoves

namespace BenchConfig

/-- The phases of one repetition. -/
def kinds (cfg : BenchConfig) : List PhaseKind :=
  if cfg.parallel then [.parallel, .serial] else [.serial]

/-- All phases in the order in which they run, each with the number of its repetition. -/
def plan (cfg : BenchConfig) : List (Nat × PhaseKind) :=
  (List.range (max 1 cfg.repetitions).toNat).flatMap fun rep =>
    cfg.kinds.map fun kind => (rep, kind)

/-- The work of one phase. -/
def work (cfg : BenchConfig) : PhaseKind → Counter → Except PhaseError Tally × Counter
  | .serial => serialTally cfg.pruning cfg.moves (normalIterations cfg.iterations)
  | .parallel =>
    parallelTally cfg.pruning (cfg.executor.shown id) cfg.moves (normalIterations cfg.iterations)

end BenchConfig

namespace Bench

/-- The note on a finished phase. -/
def note (rep : Nat) (p : Phase) : Log.Entry :=
  ⟨.debug, "rep=" ++ toString rep ++ " " ++ p.name ++ " elapsed=" ++ Number.fixed 6 p.elapsed
    ++ "s nodes=" ++ toString p.nodes⟩

/-- Writes a record to the log. -/
def report (s : Bench) (e : Log.Entry) : Bench := { s with log := s.log ++ [e] }

/-- Runs the phases of a plan, each with a note behind it; the first failure ends them. -/
def runPlan (cfg : BenchConfig) : List (Nat × PhaseKind) → Bench →
    Except PhaseError (List Phase) × Bench
  | [], s => (.ok [], s)
  | (rep, kind) :: rest, s =>
    match s.timed kind (cfg.work kind) with
    | (.error e, s) => (.error e, s)
    | (.ok p, s) =>
      match runPlan cfg rest (s.report (note rep p)) with
      | (.error e, s) => (.error e, s)
      | (.ok ps, s) => (.ok (p :: ps), s)

/-- **The benchmark**: all its phases, in the order in which they ran. -/
def run (s : Bench) (cfg : BenchConfig) : Except PhaseError (List Phase) × Bench :=
  runPlan cfg cfg.plan s

end Bench

/-- The summaries of the phases' times, by the name of the phase. -/
def phaseSummaries (phases : List Phase) : List (String × Statistics.Summary) :=
  Statistics.summaries (phases.map fun p => (p.name, p.elapsed))

/-! ## Self-check -/

/-- The verdict of a self-check. -/
structure SelfCheck where
  passed : Bool
  log : Log

/-- Searches once from the corner and compares the number of calls with the reference, which only
holds with both cutoffs on. -/
def selfCheck (cfg : Pruning) : SelfCheck :=
  let (result, counter) := ({} : Counter).runOpening cfg 0 1
  let log := match result with
    | .ok r => r.log
    | .error _ => []
  let counted : Log.Entry := ⟨.info, "calls to min_max: " ++ toString counter.value⟩
  if cfg.window && cfg.decisive && counter.value != referenceNodes then
    let complaint : Log.Entry :=
      ⟨.warning, "unexpected # of calls to min_max: " ++ toString counter.value ++ " (expected "
        ++ toString referenceNodes ++ ")"⟩
    ⟨false, log ++ [counted, complaint]⟩
  else ⟨true, log ++ [counted]⟩

end Noughts
