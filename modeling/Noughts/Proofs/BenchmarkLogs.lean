import Noughts.Proofs.Benchmarks
import Noughts.Proofs.Openings

/-!
# What a benchmark logs

Every opening is a tie, as the theory of the game expects, so that the runs of a phase have nothing
to note.  What is logged is one note for each phase, in the order of the plan (`log_of_run`).

A benchmark over openings on the board fails for one reason only: the name of the kind of worker
means none, and there is a parallel phase to need one (`exists_run_of_executor`,
`run_of_unknown_executor`).
-/

set_option autoImplicit false

namespace Noughts

variable {cfg : BenchConfig}

/-! ## Phases -/

/-- A phase that has a result has noted nothing on its runs. -/
theorem log_of_reported {pruning : Pruning} {moves : List Int} {iterations : Int}
    {tally : List Run → Tally} (htally : ∀ runs, (tally runs).log = runs.flatMap Run.log)
    {t : Tally}
    (h : reported tally (joined (moves.map fun move => runOpening pruning move iterations))
      = .ok t) : t.log = [] := by
  obtain ⟨runs, hruns, -, hrun⟩ := exists_runs pruning moves (accepted_of_reported h)
  rw [hruns, joined_map_ok] at h
  cases h
  rw [htally]
  exact List.flatMap_eq_nil_iff.mpr fun r hr => log_eq_nil_of_runOpening (hrun r hr)

theorem log_of_work {kind : PhaseKind} {c after : Counter} {t : Tally}
    (h : cfg.work kind c = (.ok t, after)) : t.log = [] := by
  cases kind with
  | serial =>
    rw [BenchConfig.work, serialTally_eq] at h
    exact log_of_reported (fun _ => rfl) (congrArg Prod.fst h)
  | parallel =>
    rw [BenchConfig.work] at h
    obtain ⟨executor, pooled, last, hname, hmoves, -⟩ := accepted_of_parallelTally h
    rw [hname, hmoves, parallelTally_concat] at h
    exact log_of_reported (fun _ => rfl) (congrArg Prod.fst h)

namespace Bench

variable {s s' : Bench}

/-- The notes on the phases of a plan. -/
def notes (plan : List (Nat × PhaseKind)) (phases : List Phase) : Log :=
  List.zipWith (fun entry p => note entry.1 p) plan phases

/-- **A plan logs a note on each of its phases**, and nothing else. -/
theorem log_of_runPlan {plan : List (Nat × PhaseKind)} {phases : List Phase}
    (h : runPlan cfg plan s = (.ok phases, s')) : s'.log = s.log ++ notes plan phases := by
  induction plan generalizing s phases with
  | nil =>
    cases h
    exact (List.append_nil _).symm
  | cons entry rest ih =>
    obtain ⟨t, after, p, later, hwork, -, rfl, hrest⟩ := exists_of_runPlan_cons h
    rw [ih hrest, log_of_work hwork, List.append_nil]
    exact List.append_assoc _ _ _

/-! ## Kinds of worker -/

/-- **A benchmark over openings on the board has a result**, if its workers are of a known kind or
it has no use for them. -/
theorem exists_run_of_executor (hne : cfg.moves ≠ [])
    (hmoves : ∀ move ∈ cfg.moves, 0 ≤ move ∧ move ≤ 8)
    (hexecutor : cfg.parallel = true → ∃ executor : Executor, cfg.executor = .value executor.name)
    (s : Bench) : ∃ (phases : List Phase) (s' : Bench), s.run cfg = (.ok phases, s') := by
  refine exists_runPlan_of_mem (fun entry hentry c => ?_) s
  obtain ⟨rep, -, hkind⟩ := List.mem_flatMap.mp hentry
  obtain ⟨kind, hkind, rfl⟩ := List.mem_map.mp hkind
  rw [BenchConfig.kinds] at hkind
  split_ifs at hkind with hparallel
  · obtain ⟨executor, hexecutor⟩ := hexecutor hparallel
    exact exists_work hexecutor hne hmoves kind c
  · obtain ⟨t, htally, -⟩ := exists_serialTally cfg.pruning (accepted_normal hmoves)
    rw [List.mem_singleton.mp hkind]
    exact ⟨t, _, htally c⟩

/-- **A parallel phase needs workers of a known kind.**  It is the first one, and nothing is touched
before it is refused. -/
theorem run_of_unknown_executor (hparallel : cfg.parallel = true)
    (hexecutor : ∀ executor : Executor, cfg.executor.shown id ≠ executor.name) (s : Bench) :
    s.run cfg = (.error (.unknownExecutor (cfg.executor.shown id)), s) := by
  obtain ⟨m, hm⟩ : ∃ m, (max 1 cfg.repetitions).toNat = m + 1 :=
    Nat.exists_eq_succ_of_ne_zero (by omega)
  have hplan : ∃ rest, cfg.plan = (0, .parallel) :: rest := by
    rw [BenchConfig.plan, hm, List.range_succ_eq_map, List.flatMap_cons, BenchConfig.kinds,
      if_pos hparallel]
    exact ⟨_, rfl⟩
  obtain ⟨rest, hplan⟩ := hplan
  have hwork : cfg.work .parallel s.counter
      = (.error (.unknownExecutor (cfg.executor.shown id)), s.counter) := by
    rw [BenchConfig.work, parallelTally,
      Executor.ofName_of_ne (hexecutor .threads) (hexecutor .processes)]
  rw [run, hplan, runPlan, Bench.timed, hwork]
  rfl

end Bench

end Noughts
