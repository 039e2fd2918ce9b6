import Noughts.Tool

/-!
# The program

The tool, run in the real world.  What it finds there is gathered first: its environment, the
files that its answer can hang on, and the clock.  The tool itself is then a function of these
(`Tool.run`), and what it printed and wrote is carried out.

The clock is read around every phase of a benchmark in a run that serves for nothing else, so that
the readings are there when the tool asks for them.
-/

set_option autoImplicit false

namespace Noughts.Program

/-- A location as the system writes it. -/
def systemPath (l : Location) : String := "/" ++ "/".intercalate l

/-- What stands at a location.  Links are looked through: what is seen is what they lead to. -/
def look (l : Location) : IO (Option FileNode) := do
  let path := (← IO.currentDir) / systemPath l
  if ← path.isDir then
    return some (if ← (path / ".").pathExists then .directory else .lockedDirectory)
  try
    return some (.file (← IO.FS.readBinFile path).toList)
  catch
    | .permissionDenied .. => return some .lockedFile
    | _ => return none

/-- Adds what stands at a location and on the way to it. -/
def observe (t : FileTree) (l : Location) : IO FileTree :=
  (List.range (l.length + 1)).foldlM (fun t k => do
    match ← look (l.take k) with
    | some n => return t.place (l.take k) n
    | none => return t) t

/-- The locations at which the search for a checkout looks. -/
def checkoutMarks (around : Surroundings) : List Location :=
  let start := around.programFile.absoluteNames around.workingDirectory
  (List.range searchDepth).map fun k => start.take (start.length - k) ++ [".git"]

/-- The files that tell the commit. -/
def observeCommit (around : Surroundings) (t : FileTree) : IO FileTree := do
  match around.repositoryRoot t with
  | .error _ => return t
  | .ok root =>
    let names (p : Path) : Location := p.absoluteNames around.workingDirectory
    let head := (root.child ".git").child "HEAD"
    let t ← observe t (names head)
    match t.readTrimmed around.workingDirectory head with
    | .error _ => return t
    | .ok text =>
      match Head.parse root text with
      | .ok (.reference file) => observe t (names file)
      | _ => return t

/-- The files that the tool's answer can hang on. -/
def gatherFiles (around : Surroundings) (out : Option Path) : IO FileTree := do
  let t ← observe {} around.workingDirectory
  let t ← (checkoutMarks around).foldlM observe t
  let t ← observeCommit around t
  match out with
  | none => return t
  | some p => observe t (p.absoluteNames around.workingDirectory)

/-- The time, in seconds. -/
def now : IO Float := do
  return (← IO.monoNanosNow).toFloat / 1000000000.0

/-- The readings of the clock around the phases of a benchmark. -/
def gatherClock (cfg : BenchConfig) : IO Clock :=
  cfg.plan.foldlM (fun readings phase => do
    let start ← now
    let _ ← IO.lazyPure fun _ => cfg.work phase.2 {}
    let finish ← now
    return readings ++ [start, finish]) []

/-- What the program finds. -/
def gather : IO Surroundings := do
  let directory := (← IO.currentDir).toString
  return {
    environment := {
      platform := ← IO.getEnv "OS"
      repository := ← IO.getEnv "TTTBENCH_REPO_ROOT"
      results := ← IO.getEnv "TTTBENCH_RESULTS"
      hashSeed := ← IO.getEnv "PYTHONHASHSEED" }
    workingDirectory := (Path.ofString directory).absoluteNames []
    programFile := .ofString (← IO.appPath).toString
    number := Number.plain.double }

/-- Carries out what was written. -/
def carryOut (earlier later : FileTree) : IO Unit :=
  later.entries.reverse.forM fun e => do
    if earlier.node? e.1 != some e.2 then
      match e.2 with
      | .directory => IO.FS.createDirAll (systemPath e.1)
      | .file content => IO.FS.writeBinFile (systemPath e.1) ⟨content.toArray⟩
      | _ => pure ()

/-- The benchmark that a command line asks for, if it does, and where its report goes. -/
def benchmarkOf (around : Surroundings) (arguments : List String) :
    Option (BenchConfig × Option Path) :=
  match Tool.Invocation.read arguments with
  | .ok { version := false, info := false, command := some (.bench r), .. } =>
    match r.repetitions with
    | .blank => none
    | .value repetitions =>
      if repetitions ≤ 0 then none
      else
        some (r.config repetitions (parallelSupported around.environment.platform),
          r.out.bind Setting.value?)
  | _ => none

end Noughts.Program

open Noughts Noughts.Program in
/-- Runs the tool. -/
def main (arguments : List String) : IO UInt32 := do
  let around ← gather
  let wanted := benchmarkOf around arguments
  let files ← gatherFiles around (wanted.bind Prod.snd)
  let clock ← match wanted with
    | some (cfg, _) => gatherClock cfg
    | none => pure []
  let t := Tool.run around { files, clock } arguments
  (← IO.getStdout).putStr t.output
  (← IO.getStderr).putStr t.messages
  carryOut files t.session.files
  match t.ending with
  | .ok (.returned status) => return status.toUInt32
  | .ok (.exited status) => return status.toUInt32
  | .error e =>
    (← IO.getStderr).putStrLn e.message
    return 1
