import Noughts.CommandLine.Reader
import Noughts.Path
import Noughts.Phase

/-!
# Invocations of the tool

What the tool can be asked to do, and the command line it is asked with.

The tool has four commands, each with a command line of its own behind its name.  A command line
is read as a whole before anything is done.  Arguments that nobody asked for are collected on both
levels and refused together.
-/

set_option autoImplicit false

namespace Noughts.Tool

open CommandLine

/-! ## Requests -/

/-- A request for the benchmark. -/
structure BenchRequest where
  iterations : Option Int := none
  serialOnly : Bool := false
  executor : Setting String := .value Executor.threads.name
  repetitions : Setting Int := .value 1
  pruning : Pruning := {}
  /-- Is the benchmark to be reported to the tracking service? -/
  tracking : Bool := false
  /-- Where the service keeps its runs. -/
  store : Setting Path := .value (.ofString "runs")
  /-- Where the report goes, if one is wanted. -/
  out : Option (Setting Path) := none

/-- A request to search one opening. -/
structure SolveRequest where
  opening : Setting Int
  iterations : Setting Int := .value 1
  pruning : Pruning := {}

/-- The commands. -/
inductive Command where
  | bench (request : BenchRequest)
  | solve (request : SolveRequest)
  | selfCheck
  | openings

/-- What the tool is asked to do. -/
structure Invocation where
  verbose : Bool := false
  /-- Print the version, and nothing else. -/
  version : Bool := false
  /-- Print what the tool runs on, and nothing else. -/
  info : Bool := false
  command : Option Command := none

/-! ## Command lines -/

/-- The request for help, which every command line knows. -/
def helpSwitch : Switch := { names := ["-h", "--help"], kind := .help }

/-- The two switches that turn a cutoff off. -/
def pruningSwitches : List Switch :=
  [{ names := ["--no-ab-prune"], kind := .flag },
   { names := ["--no-win-lose-prune"], kind := .flag }]

/-- The names of the commands. -/
def commandNames : List String := ["bench", "solve", "selfcheck", "openings"]

/-- The command line of the tool. -/
def grammar : Grammar where
  program := "tttbench"
  usage :=
    "usage: tttbench [-h] [--verbose] [--version] [--info]\n" ++
    "                \x7bbench,solve,selfcheck,openings\x7d ...\n"
  details :=
    "Tic-tac-toe minimax benchmark\n" ++
    "\n" ++
    "positional arguments:\n" ++
    "  \x7bbench,solve,selfcheck,openings\x7d\n" ++
    "    bench               Solve the three distinct openings, parallel then\n" ++
    "                        serial\n" ++
    "    solve               Search from a single opening cell\n" ++
    "    selfcheck           Verify the reference min_max call count from the\n" ++
    "                        corner\n" ++
    "    openings            Show the symmetry class of each opening cell\n" ++
    "\n" ++
    "options:\n" ++
    "  -h, --help            show this help message and exit\n" ++
    "  --verbose, -v         Enable verbose logging\n" ++
    "  --version             Print version and exit\n" ++
    "  --info                Print environment and dependency info and exit\n"
  switches :=
    [helpSwitch, { names := ["--verbose", "-v"], kind := .flag },
     { names := ["--version"], kind := .flag }, { names := ["--info"], kind := .flag }]
  operand := .command "cmd" commandNames

/-- The command line of the benchmark. -/
def benchGrammar : Grammar where
  program := "tttbench bench"
  usage :=
    "usage: tttbench bench [-h] [--serial-only] [--executor \x7bthread,process\x7d]\n" ++
    "                      [--repeat REPEAT] [--no-ab-prune] [--no-win-lose-prune]\n" ++
    "                      [--tracking \x7bnone,mlflow\x7d] [--log-dir LOG_DIR]\n" ++
    "                      [--out OUT]\n" ++
    "                      [iterations]\n"
  details :=
    "positional arguments:\n" ++
    "  iterations            Searches per opening (default: 1; non-positive means\n" ++
    "                        1)\n" ++
    "\n" ++
    "options:\n" ++
    "  -h, --help            show this help message and exit\n" ++
    "  --serial-only         Skip the parallel phase\n" ++
    "  --executor \x7bthread,process\x7d\n" ++
    "                        Worker pool for the parallel phase (default: thread)\n" ++
    "  --repeat REPEAT       Repeat both phases N times\n" ++
    "  --no-ab-prune         Disable alpha-beta pruning\n" ++
    "  --no-win-lose-prune   Disable the immediate win/lose cutoff\n" ++
    "  --tracking \x7bnone,mlflow\x7d\n" ++
    "                        Experiment tracking backend\n" ++
    "  --log-dir LOG_DIR     Directory for tracking logs (for mlflow local backend)\n" ++
    "  --out OUT             Write a JSON report to this file\n"
  switches :=
    [helpSwitch, { names := ["--serial-only"], kind := .flag },
     { names := ["--executor"], kind := .choice (Executor.all.map Executor.name) },
     { names := ["--repeat"], kind := .integer }] ++ pruningSwitches ++
    [{ names := ["--tracking"], kind := .choice ["none", "mlflow"] },
     { names := ["--log-dir"], kind := .text }, { names := ["--out"], kind := .text }]
  operand := .integer "iterations"

/-- The command line of a single opening. -/
def solveGrammar : Grammar where
  program := "tttbench solve"
  usage :=
    "usage: tttbench solve [-h] --opening OPENING [--iterations ITERATIONS]\n" ++
    "                      [--no-ab-prune] [--no-win-lose-prune]\n"
  details :=
    "options:\n" ++
    "  -h, --help            show this help message and exit\n" ++
    "  --opening OPENING     Cell 0-8 holding the opening X\n" ++
    "  --iterations ITERATIONS\n" ++
    "                        Searches to run (default: 1)\n" ++
    "  --no-ab-prune         Disable alpha-beta pruning\n" ++
    "  --no-win-lose-prune   Disable the immediate win/lose cutoff\n"
  switches :=
    [helpSwitch, { names := ["--opening"], kind := .integer, required := true },
     { names := ["--iterations"], kind := .integer }] ++ pruningSwitches

/-- The command line of a command that takes nothing but a request for help. -/
def plainGrammar (program : String) : Grammar where
  program := program
  usage := "usage: " ++ program ++ " [-h]\n"
  details :=
    "options:\n" ++
    "  -h, --help  show this help message and exit\n"
  switches := [helpSwitch]

/-! ## From command lines to requests -/

/-- The cutoffs that a command line leaves on. -/
def pruningOf (r : Reading) : Pruning :=
  ⟨!r.has "--no-ab-prune", !r.has "--no-win-lose-prune"⟩

/-- The request behind `bench`. -/
def benchRequest (r : Reading) : BenchRequest where
  iterations := r.operand? "iterations"
  serialOnly := r.has "--serial-only"
  executor := (r.text? "--executor").getD (.value Executor.threads.name)
  repetitions := (r.integer? "--repeat").getD (.value 1)
  pruning := pruningOf r
  tracking := r.text? "--tracking" == some (.value "mlflow")
  store := ((r.text? "--log-dir").getD (.value "runs")).map .ofString
  out := (r.text? "--out").map fun s => s.map .ofString

/-- The request behind `solve`. -/
def solveRequest (r : Reading) : SolveRequest where
  opening := (r.integer? "--opening").getD (.value 0)
  iterations := (r.integer? "--iterations").getD (.value 1)
  pruning := pruningOf r

/-- A command with its arguments: the request, and the arguments that nobody asked for. -/
def readCommand (name : String) (arguments : List String) :
    Except Stop (Command × List String) :=
  match name with
  | "bench" => (benchGrammar.read arguments).map fun r => (.bench (benchRequest r), r.extras)
  | "solve" => (solveGrammar.read arguments).map fun r => (.solve (solveRequest r), r.extras)
  | "selfcheck" =>
    ((plainGrammar "tttbench selfcheck").read arguments).map fun r => (.selfCheck, r.extras)
  | _ => ((plainGrammar "tttbench openings").read arguments).map fun r => (.openings, r.extras)

/-- Reads a command line of the tool. -/
def Invocation.read (arguments : List String) : Except Stop Invocation := do
  let r ← grammar.read arguments
  let asked : Invocation :=
    { verbose := r.has "--verbose", version := r.has "--version", info := r.has "--info" }
  match r.command with
  | none =>
    let _ ← grammar.settle r
    return asked
  | some (name, rest) =>
    let (command, extras) ← readCommand name rest
    let _ ← grammar.settle { r with extras := r.extras ++ extras }
    return { asked with command := some command }

end Noughts.Tool
