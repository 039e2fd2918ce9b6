import Noughts.Symmetry
import Noughts.Board.Text
import Noughts.Fields
import Noughts.Tool.Invocation
import Noughts.Tool.Report
import Noughts.Tracking
import Noughts.Transcript

/-!
# The tool

What each command does.  `Tool.perform` is the tool after its command line has been read, and
`Tool.run` is the whole of it.

* `bench` runs the benchmark and logs its phases; with more than one repetition it also logs how
  their times are distributed, and it can write a report and have itself tracked.
* `solve` searches one opening.
* `selfcheck` counts the calls of the reference search.
* `openings` lists the classes of openings.

`bench` and `solve` turn a value that cannot be used into an error record and the status `2`.  Any
other failure ends the tool.
-/

set_option autoImplicit false

namespace Noughts.Tool

open Noughts.Action (print)

/-- The version of the tool. -/
def version : String := "0.1.0"

/-- A text with blanks behind it, up to a width. -/
def padded (width : Nat) (s : String) : String :=
  s ++ String.ofList (List.replicate (width - s.length) ' ')

/-! ## The benchmark -/

/-- The benchmark that a request stands for, repeated so often, where phases can or cannot run in
parallel. -/
def BenchRequest.config (r : BenchRequest) (repetitions : Int) (parallel : Bool) :
    BenchConfig where
  iterations := some (normalIterations r.iterations)
  parallel := !r.serialOnly && parallel
  executor := r.executor
  repetitions := repetitions
  pruning := r.pruning

/-- What is logged of a phase. -/
def phaseLines (p : Phase) : List String :=
  [padded 8 p.name ++ " runtime: " ++ Number.fixed 6 p.elapsed ++ " s",
   "moves:            " ++ toString p.nodes] ++
  if p.name = PhaseKind.serial.name then ["iterations:       " ++ toString p.iterations] else []

/-- What is logged of the times of one kind of phase. -/
def distributionLine (name : String) (s : Statistics.Summary) : String :=
  "dist " ++ name ++ " min=" ++ Number.fixed 6 s.min ++ " p50=" ++ Number.fixed 6 s.p50
    ++ " p95=" ++ Number.fixed 6 s.p95 ++ " max=" ++ Number.fixed 6 s.max
    ++ " mean=" ++ Number.fixed 6 s.mean

/-- Logs lines at the usual level. -/
def reportLines (lines : List String) : Action Unit :=
  lines.forM fun line => Action.report .info line

/-- The parameters of a tracked benchmark. -/
def parameters (cfg : BenchConfig) : List (String × Document) :=
  [("iterations", .integer (normalIterations cfg.iterations)), ("parallel", .bool cfg.parallel),
   ("executor", .ofSetting .text cfg.executor), ("repeat", .integer cfg.repetitions),
   ("ab_prune", .bool cfg.pruning.window), ("win_lose_prune", .bool cfg.pruning.decisive)]

/-- The metrics of a tracked benchmark: the times of each kind of phase, and its nodes. -/
def metrics (phases : List Phase) : Fields Float :=
  let times := (phaseSummaries phases).flatMap fun s =>
    (s.2.entries.filter fun e => e.1 != "n").map fun e => (s.1 ++ "_" ++ e.1 ++ "_s", e.2)
  (phases.map fun p => (p.name ++ "_nodes", Float.ofInt p.nodes)).foldl Fields.set times

/-- Writes the report of a benchmark, in a directory that is made if it is missing, and answers
where it is. -/
def writeReport (around : Surroundings) (out : Setting Path) (cfg : BenchConfig)
    (phases : List Phase) : Action Path := do
  let commit ← Action.commit around
  let path ← Action.needed .file out
  Action.makeDirectories around path.parent
  Action.writeDocument around path (report around commit cfg phases)
  Action.report .info ("Wrote report to: " ++ path.text)
  return path

/-- The benchmark and all that is reported of it. -/
def benchBlock (around : Surroundings) (out : Option (Setting Path)) (cfg : BenchConfig)
    (tracked : Bool) : Action Unit := do
  if tracked then
    Tracking.logParams around (parameters cfg)
  let phases ← Action.benchmark cfg
  reportLines (phases.flatMap phaseLines)
  if 1 < cfg.repetitions then
    reportLines ((phaseSummaries phases).map fun s => distributionLine s.1 s.2)
  if tracked then
    Tracking.logMetrics around (metrics phases)
  match out with
  | none => pure ()
  | some out =>
    let path ← writeReport around out cfg phases
    if tracked then
      Tracking.logArtifact around path

/-- The command `bench`. -/
def bench (around : Surroundings) (r : BenchRequest) : Action Nat := do
  let repetitions ← Action.needed .amount r.repetitions
  if repetitions ≤ 0 then
    Action.report .error "--repeat must be > 0"
    return 2
  let parallel := parallelSupported around.environment.platform
  if !r.serialOnly && !parallel then
    Action.report .info "single-threaded environment detected; skipping parallel phase"
  Tracking.tracked around r.tracking "bench" (some r.store) fun tracked =>
    benchBlock around r.out (r.config repetitions parallel) tracked
  return 0

/-! ## The other commands -/

/-- The drawing of a board that holds an opening. -/
def openingDrawing (opening : Int) : String :=
  match Board.opening? opening with
  | .error _ => ""
  | .ok b =>
    match b.drawing with
    | .error _ => ""
    | .ok s => s

/-- The command `solve`. -/
def solve (r : SolveRequest) : Action Nat := do
  let iterations ← Action.needed .amount r.iterations
  if iterations ≤ 0 then
    Action.report .error "--iterations must be > 0"
    return 2
  let opening ← Action.needed .cell r.opening
  let run ← Action.ofExcept (fun e => .phase (.run e)) (runOpening r.pruning opening iterations)
  Action.change fun s => { s with log := s.log ++ run.log }
  Action.report .debug ("start board:\n" ++ openingDrawing opening)
  let score := match run.score with
    | some s => s.name
    | none => ""
  Action.report .info ("opening=" ++ toString run.move ++ " score=" ++ score ++ " nodes="
    ++ toString run.nodes ++ " iterations=" ++ toString run.iterations)
  return 0

/-- The command `selfcheck`. -/
def check : Action Nat := do
  let result := selfCheck {}
  Action.change fun s => { s with log := s.log ++ result.log }
  return if result.passed then 0 else 1

/-- The command `openings`. -/
def openings : Action Nat := do
  reportLines (openingClasses.map fun c =>
    "opening=" ++ toString c.1 ++ " orbit=[" ++ ", ".intercalate (c.2.map toString) ++ "]")
  return 0

/-- Prints what the tool runs on. -/
def printInfo (around : Surroundings) : Action Nat := do
  print ("python=" ++ around.languageVersion ++ " platform=" ++ around.systemName)
  print ("parallel_supported=" ++
    if parallelSupported around.environment.platform then "True" else "False")
  print ("numpy=" ++ around.numericVersion)
  print ("mlflow=" ++ if around.trackerInstalled then "?" else "<not installed>")
  return 0

/-! ## The whole -/

/-- Turns a value that cannot be used into an error record. -/
def refusing (a : Action Nat) : Action Nat :=
  tryCatch a fun e =>
    if e.isInvalidValue then do
      Action.report .error e.message
      return 2
    else throw e

/-- Does what an invocation asks for, and answers the exit status. -/
def perform (around : Surroundings) (i : Invocation) : Action Nat :=
  if i.version then do
    print version
    return 0
  else if i.info then printInfo around
  else
    match i.command with
    | some (.bench r) => refusing (bench around r)
    | some (.solve r) => refusing (solve r)
    | some .selfCheck => check
    | some .openings => openings
    | none => do
      Action.change fun s => { s with output := s.output ++ grammar.description }
      return 0

/-- How a record shows among the messages: from `info` on, or every one if the tool is to be
verbose. -/
def written (verbose : Bool) (e : Log.Entry) : Option String :=
  if e.level = .debug ∧ !verbose then none else some e.line

/-- **The tool**: reads its command line and does what it is asked to. -/
def run (around : Surroundings) (s : Session) (arguments : List String) : Transcript :=
  match Invocation.read arguments with
  | .error stop => .ofStop s stop
  | .ok i => .ofAction s (written i.verbose) (perform around i)

end Noughts.Tool
