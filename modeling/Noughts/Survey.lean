import Noughts.Fields
import Noughts.Tracking
import Noughts.Transcript
import Noughts.Tool.Invocation

/-!
# The survey

The benchmark, run again and again, each time on a fresh counter.  The times of each kind of phase
are reported with their mean and its confidence interval, and so are the nodes and how much faster
the parallel phase is; all of it also goes into a file under the commit it belongs to.

The iteration count is reported as it was asked for.  What is run is the count that
`normalIterations` makes of it.
-/

set_option autoImplicit false

namespace Noughts.Survey

open CommandLine
open Noughts.Action (print)

/-! ## Requests -/

/-- A request for a survey. -/
structure Request where
  runs : Setting Int := .value 10
  iterations : Setting Int := .value 100
  executor : Setting String := .value Executor.threads.name
  tracking : Setting String := .value "none"
  /-- Where the tracking service keeps its runs. -/
  store : Path := .ofString "runs"

/-- The command line of a survey. -/
def grammar : Grammar where
  program := "run_benchmarks.py"
  usage :=
    "usage: run_benchmarks.py [-h] [--runs RUNS] [--iterations ITERATIONS]\n" ++
    "                         [--executor \x7bthread,process\x7d]\n" ++
    "                         [--tracking \x7bnone,mlflow\x7d]\n"
  details :=
    "Repeated serial/parallel benchmark with 95% CIs\n" ++
    "\n" ++
    "options:\n" ++
    "  -h, --help            show this help message and exit\n" ++
    "  --runs RUNS           independent benchmark runs\n" ++
    "  --iterations ITERATIONS\n" ++
    "  --executor \x7bthread,process\x7d\n" ++
    "  --tracking \x7bnone,mlflow\x7d\n"
  switches :=
    [Tool.helpSwitch, { names := ["--runs"], kind := .integer },
     { names := ["--iterations"], kind := .integer },
     { names := ["--executor"], kind := .choice (Executor.all.map Executor.name) },
     { names := ["--tracking"], kind := .choice ["none", "mlflow"] }]

/-- Reads a command line of the survey. -/
def Request.read (arguments : List String) : Except Stop Request := do
  let r ← grammar.read arguments
  let _ ← grammar.settle r
  let standard : Request := {}
  return { runs := (r.integer? "--runs").getD standard.runs
           iterations := (r.integer? "--iterations").getD standard.iterations
           executor := (r.text? "--executor").getD standard.executor
           tracking := (r.text? "--tracking").getD standard.tracking }

/-! ## What is measured -/

/-- The phases of a number of runs. -/
def phases (cfg : BenchConfig) : Nat → Action (List Phase)
  | 0 => pure []
  | n + 1 => do
    let first ← Action.benchmark cfg
    let rest ← phases cfg n
    return first ++ rest

/-- The nodes of each kind of phase, as its last run counted them. -/
def nodesByName (ps : List Phase) : Fields Int :=
  Fields.ofList (ps.map fun p => (p.name, p.nodes))

/-- What is printed of the times of one kind of phase. -/
def intervalLine (name : String) (c : Statistics.Confidence) : String :=
  let label := name ++ ":"
  label ++ String.ofList (List.replicate (9 - label.length) ' ') ++ " mean="
    ++ Number.fixed 4 c.mean ++ "s ± " ++ Number.fixed 4 c.half ++ "s (95% CI)"

/-- Prints the interval of each kind of phase, and answers the metrics they make. -/
def intervals : List (String × List Float) → Action (List (String × Float))
  | [] => pure []
  | (name, times) :: rest => do
    let c ← Action.ofExcept .confidence (Statistics.confidence times)
    print (intervalLine name c)
    let others ← intervals rest
    return [(name ++ "_mean_s", c.mean), (name ++ "_ci95_half_s", c.half)] ++ others

/-- How much faster the parallel phase is, where there is one: undefined unless it takes time. -/
def speedup (metrics : List (String × Float)) : List (String × Float) :=
  match Fields.get? metrics "parallel_mean_s", Fields.get? metrics "serial_mean_s" with
  | some p, some s => [("speedup", if 0.0 < p then s / p else Statistics.undefined)]
  | _, _ => []

/-! ## The file -/

/-- The survey as a document. -/
def document (r : Request) (parallel : Bool) (metrics : List (String × Float))
    (times : List (String × List Float)) (nodes : List (String × Int)) : Document :=
  .record
    [("config", .record
       [("runs", .text (r.runs.shown toString)),
        ("iterations", .text (r.iterations.shown toString)),
        ("executor", .text (r.executor.shown id)), ("tracking", .text (r.tracking.shown id)),
        ("log_dir", .text r.store.text)]),
     ("parallel", .bool parallel),
     ("metrics", .record (metrics.map fun m => (m.1, .double m.2))),
     ("times", .record (times.map fun t => (t.1, .list (t.2.map .double)))),
     ("nodes", .record (nodes.map fun n => (n.1, .integer n.2)))]

/-- The directory name of a commit; an unknown commit and an empty one have the same. -/
def commitName (commit : Option String) : String :=
  match commit with
  | some c => if c = "" then "unversioned" else c
  | none => "unversioned"

/-- Writes the survey to its file, and answers where that is. -/
def writeFile (around : Surroundings) (d : Document) : Action Path := do
  let results ← Action.results around
  let commit ← Action.commit around
  let out := (results.child (commitName commit)).child "benchmarks.json"
  Action.makeDirectories around out.parent
  Action.writeDocument around out d
  return out

/-! ## The whole -/

/-- The parameters of a tracked survey. -/
def parameters (r : Request) (parallel : Bool) : List (String × Document) :=
  [("runs", .ofSetting .integer r.runs), ("iterations", .ofSetting .integer r.iterations),
   ("executor", .ofSetting .text r.executor), ("parallel", .bool parallel)]

/-- So many runs and all that is reported of them. -/
def block (around : Surroundings) (r : Request) (runs : Nat) (parallel tracked : Bool) :
    Action Nat := do
  if tracked then
    Tracking.logParams around (parameters r parallel)
  let iterations ← Action.needed .amount r.iterations
  let ps ← phases { iterations := some iterations, executor := r.executor, parallel } runs
  let nodes := nodesByName ps
  let serial := (Fields.get? nodes PhaseKind.serial.name).getD 0
  let differing := (Fields.get? nodes PhaseKind.parallel.name).filter fun n => n != serial
  match differing with
  | some n =>
    print ("node totals differ: parallel=" ++ toString n ++ " serial=" ++ toString serial)
    return 1
  | none =>
    let times := Statistics.groups (ps.map fun p => (p.name, p.elapsed))
    let means ← intervals times
    let metrics := means ++ speedup means
    print ("moves:    " ++ toString serial ++ " per phase, iterations=" ++ toString iterations)
    let out ← writeFile around (document r parallel metrics times nodes)
    print ("Wrote " ++ out.text)
    if tracked then
      Tracking.logMetrics around metrics
      Tracking.logArtifact around out
    return 0

/-- Does what a request asks for, and answers the exit status. -/
def perform (around : Surroundings) (r : Request) : Action Nat := do
  let runs ← Action.needed .amount r.runs
  if runs ≤ 0 then
    print "--runs must be > 0"
    return 2
  let parallel := parallelSupported around.environment.platform
  if !parallel then
    print "single-threaded environment detected; skipping parallel phase"
  Tracking.tracked around (r.tracking == .value "mlflow") "benchmarks"
    (some (.value r.store)) fun tracked => block around r runs.toNat parallel tracked

/-- How a record shows among the messages: warnings and errors do, with the name of their log. -/
def written (e : Log.Entry) : Option String :=
  match e.level with
  | .debug => none
  | .info => none
  | _ => some (e.level.name ++ ":root:" ++ e.text)

/-- **The survey**: reads its command line and does what it is asked to. -/
def run (around : Surroundings) (s : Session) (arguments : List String) : Transcript :=
  match Request.read arguments with
  | .error stop => .ofStop s stop
  | .ok r => .ofAction s written (perform around r)

end Noughts.Survey
