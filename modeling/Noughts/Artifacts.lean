import Noughts.Digest.Sha256
import Noughts.Survey

/-!
# Benchmark artifacts

For a checkout that is tested automatically: runs its benchmark tests with another program, has
their figures written into a directory of the commit, and adds a manifest that says which commit
and which project file they belong to.
-/

set_option autoImplicit false

namespace Noughts.Artifacts

open Noughts.Action (print)

/-- The program that runs the tests. -/
def testProgram : String := "pytest"

/-- The command that runs the benchmark tests. -/
def command (around : Surroundings) (figures : Path) : List String :=
  [around.interpreter, "-m", testProgram, "-q", "tests/test_benchmarks.py",
   "--benchmark-min-time=0.1", "--benchmark-warmup=on", "--benchmark-warmup-iterations=10",
   "--benchmark-json", figures.text]

/-- Runs a command, which ends with the given status. -/
def runTests (around : Surroundings) (arguments : List String) (checkout : Path)
    (status : ExitStatus) : Action Unit := do
  let ran : CommandRun :=
    ⟨arguments, checkout, around.environment.hashSeed.getD "0"⟩
  Action.change fun s => { s with commands := s.commands ++ [ran] }
  if status = 0 then pure () else throw (.command testProgram status)

/-- The digest of a file. -/
def digest (around : Surroundings) (p : Path) : Action String := do
  let bytes ← Action.ofExcept .file ((← get).files.read around.workingDirectory p)
  return Digest.sha256 bytes

/-- The manifest. -/
def manifest (commit : String) (figures : Path) (projectDigest : String) : Document :=
  .record
    [("commit", .text commit),
     ("artifacts", .record [("pytest_benchmark_json", .text figures.text)]),
     ("pyproject_sha256", .text projectDigest)]

/-- Makes the artifacts of a checkout whose tests end with the given status. -/
def perform (around : Surroundings) (checkout : Path) (status : ExitStatus) : Action Nat := do
  let commit := Survey.commitName (← Action.commit around)
  let directory := ((← Action.results around).child "ci").child commit
  Action.makeDirectories around directory
  let figures := directory.child "pytest-benchmark.json"
  let arguments := command around figures
  print ("Running: " ++ " ".intercalate arguments)
  runTests around arguments checkout status
  let projectDigest ← digest around (checkout.child "pyproject.toml")
  Action.writeDocument around (directory.child "manifest.json")
    (manifest commit figures projectDigest)
  print ("Wrote benchmark artifacts to " ++ directory.text)
  return 0

/-- **The artifacts**, made by a program whose own file is one directory below the checkout. -/
def run (around : Surroundings) (s : Session) (script : Path) (status : ExitStatus) : Transcript :=
  .ofAction s (fun _ => none) do
    let file ← Action.ofExcept .file (s.files.resolve around.workingDirectory script)
    perform around file.parent.parent status

end Noughts.Artifacts
