import Noughts.Session

/-!
# The benchmark's report

What a benchmark leaves behind as a document: the commit and the machine it ran on, what it was
asked to run, every phase, and the summary of each kind of phase.
-/

set_option autoImplicit false

namespace Noughts.Tool

/-- A score, or nothing where there was no search. -/
def scoreDocument : Option Score → Document
  | some s => .integer s
  | none => .null

/-- What a benchmark was asked to run. -/
def configDocument (cfg : BenchConfig) : Document :=
  .record
    [("iterations", .integer (normalIterations cfg.iterations)),
     ("parallel", .bool cfg.parallel),
     ("executor", .ofSetting .text cfg.executor),
     ("repeat", .integer cfg.repetitions),
     ("search", .record
       [("ab_prune", .bool cfg.pruning.window), ("win_lose_prune", .bool cfg.pruning.decisive)]),
     ("moves", .list (cfg.moves.map .integer))]

/-- One phase. -/
def phaseDocument (p : Phase) : Document :=
  .record
    [("name", .text p.name),
     ("elapsed_s", .double p.elapsed),
     ("nodes", .integer p.nodes),
     ("iterations", .integer p.iterations),
     ("scores", .record (p.scores.map fun s => (toString s.1, scoreDocument s.2)))]

/-- The summary of one kind of phase. -/
def summaryDocument (s : Statistics.Summary) : Document :=
  .record (s.entries.map fun e => (e.1, .double e.2))

/-- The whole report. -/
def report (around : Surroundings) (commit : Option String) (cfg : BenchConfig)
    (phases : List Phase) : Document :=
  .record
    [("commit", match commit with | some c => .text c | none => .null),
     ("python", .text around.languageVersion),
     ("platform", .text around.systemName),
     ("config", configDocument cfg),
     ("phases", .list (phases.map phaseDocument)),
     ("summary", .record ((phaseSummaries phases).map fun s => (s.1, summaryDocument s.2)))]

end Noughts.Tool
