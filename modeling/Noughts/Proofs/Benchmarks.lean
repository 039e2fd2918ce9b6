import Noughts.Proofs.Tallies
import Noughts.Survey

/-!
# Benchmarks

A benchmark runs phase after phase on one counter and with one clock.  Nothing is left over from
one phase to the next: each resets the counter, so that all of them count the same, and each takes
two readings of the clock.

* `Ran` is what holds of the phases that some part of a plan has made.  It holds of none
  (`Ran.nil`), and of one more if it holds of those after it (`Ran.cons`).
* `benchmark_phases`: a benchmark over openings on the board always has a result, and so has all of
  its phases.  However the survey ends, then, it is not because the node totals differ.
-/

set_option autoImplicit false

namespace Noughts

variable {cfg : BenchConfig}

/-! ## One phase -/

/-- The node total of every phase of a benchmark. -/
def BenchConfig.total (cfg : BenchConfig) : Int :=
  totalCalls cfg.pruning (normalIterations cfg.iterations) cfg.moves

/-- What every phase of a benchmark reports, of whichever kind it is. -/
structure PhaseOf (cfg : BenchConfig) (p : Phase) : Prop where
  nodes : p.nodes = cfg.total
  iterations : p.iterations = normalIterations cfg.iterations
  scores : ∀ move, p.scores.lookup move =
    if move ∈ cfg.moves then
      some (scoreOf cfg.pruning (normalIterations cfg.iterations) move)
    else none

/-- **The two kinds of phase report the same**, and leave the counter at the same total. -/
theorem phaseOf_work {kind : PhaseKind} {c after : Counter} {t : Tally}
    (h : cfg.work kind c = (.ok t, after)) (elapsed : Float) :
    PhaseOf cfg (t.timed kind elapsed) ∧ after.value = cfg.total := by
  cases kind with
  | serial =>
    obtain ⟨t', htally, hnodes, hiterations, hscores⟩ :=
      exists_serialTally cfg.pruning (accepted_of_serialTally h)
    cases (htally c).symm.trans h
    refine ⟨⟨hnodes, hiterations, fun move => ?_⟩, hnodes⟩
    rw [Tally.timed, hscores, Scores.lookup_tabulate]
    simp only [List.mem_eraseDups]
  | parallel =>
    rw [BenchConfig.work] at h
    obtain ⟨executor, pooled, last, hname, hmoves, haccepted⟩ := accepted_of_parallelTally h
    rw [hmoves] at haccepted
    obtain ⟨t', order, htally, hnodes, hiterations, hscores, -, hmem⟩ :=
      exists_parallelTally cfg.pruning executor haccepted
    rw [hname, hmoves] at h
    cases (htally c).symm.trans h
    rw [← hmoves] at hnodes hmem
    refine ⟨⟨hnodes, hiterations, fun move => ?_⟩, hnodes⟩
    rw [Tally.timed, hscores, Scores.lookup_tabulate]
    simp only [hmem]

theorem normalIterations_pos (iterations : Option Int) : 0 < normalIterations iterations := by
  cases iterations with
  | none => decide
  | some n =>
    rw [normalIterations]
    split_ifs with hn
    · decide
    · exact Int.not_le.mp hn

theorem accepted_normal (hmoves : ∀ move ∈ cfg.moves, 0 ≤ move ∧ move ≤ 8) :
    ∀ move ∈ cfg.moves, refusal? (normalIterations cfg.iterations) move = none :=
  fun move hmove => refusal?_eq_none_iff.mpr
    ⟨hmoves move hmove, Int.le_of_lt (normalIterations_pos cfg.iterations)⟩

/-- The openings of a benchmark that asks for no others. -/
theorem openingMoves_onBoard : ∀ move ∈ openingMoves, 0 ≤ move ∧ move ≤ 8 := by decide

theorem BenchConfig.total_of_openingMoves (h : cfg.moves = openingMoves) :
    cfg.total = normalIterations cfg.iterations *
      ([0, 1, 4].map fun cell => ((solve cfg.pruning (openingBoard cell) cell).nodes : Int)).sum := by
  have hmoves : ∀ move ∈ cfg.moves, 0 ≤ move ∧ move ≤ 8 := h ▸ openingMoves_onBoard
  rw [BenchConfig.total, totalCalls_of_accepted _ (accepted_normal hmoves), h]
  rfl

/-- A phase over openings on the board has a result. -/
theorem exists_work {executor : Executor} (hexecutor : cfg.executor = .value executor.name)
    (hne : cfg.moves ≠ []) (hmoves : ∀ move ∈ cfg.moves, 0 ≤ move ∧ move ≤ 8) (kind : PhaseKind)
    (c : Counter) : ∃ (t : Tally) (after : Counter), cfg.work kind c = (.ok t, after) := by
  have haccepted := accepted_normal hmoves
  cases kind with
  | serial =>
    obtain ⟨t, htally, -⟩ := exists_serialTally cfg.pruning haccepted
    exact ⟨t, _, htally c⟩
  | parallel =>
    obtain ⟨pooled, last, hconcat⟩ := (List.eq_nil_or_concat' cfg.moves).resolve_left hne
    rw [hconcat] at haccepted
    obtain ⟨t, -, htally, -⟩ := exists_parallelTally cfg.pruning executor haccepted
    refine ⟨t, ⟨t.nodes⟩, ?_⟩
    rw [BenchConfig.work, hexecutor, hconcat]
    exact htally c

/-! ## One phase after the other -/

namespace Bench

variable {s s' : Bench}

/-- **A phase takes two readings of the clock**, and is otherwise as its work says. -/
theorem timed_ok {kind : PhaseKind} {work : Counter → Except PhaseError Tally × Counter} {t : Tally}
    {after : Counter} (h : work s.counter = (.ok t, after)) :
    s.timed kind work = (.ok (t.timed kind (s.clock.reading 1 - s.clock.reading 0)),
      { counter := after, clock := s.clock.tick.2.tick.2, log := s.log ++ t.log }) := by
  rw [Bench.timed, h]
  simp only [Clock.tick_fst, Clock.reading_tick]

/-- What holds of the phases that a plan has made, and of what they have left behind. -/
structure Ran (cfg : BenchConfig) (plan : List (Nat × PhaseKind)) (s : Bench) (phases : List Phase)
    (s' : Bench) : Prop where
  names : phases.map Phase.name = plan.map fun entry => entry.2.name
  phaseOf : ∀ p ∈ phases, PhaseOf cfg p
  elapsed : ∀ (j : Nat) (p : Phase), phases[j]? = some p →
    p.elapsed = s.clock.reading (2 * j + 1) - s.clock.reading (2 * j)
  clock : ∀ k, s'.clock.reading k = s.clock.reading (2 * phases.length + k)
  counter : s'.counter.value = if plan = [] then s.counter.value else cfg.total

theorem Ran.nil (s : Bench) : Ran cfg [] s [] s where
  names := rfl
  phaseOf := by simp
  elapsed := by simp
  clock := by simp
  counter := (if_pos rfl).symm

/-- One phase before others, from where it has left the counter and the clock. -/
theorem Ran.cons {rep : Nat} {kind : PhaseKind} {rest : List (Nat × PhaseKind)} {t : Tally}
    {after : Counter} (h : cfg.work kind s.counter = (.ok t, after)) {between : Bench}
    (hcounter : between.counter = after) (hclock : between.clock = s.clock.tick.2.tick.2)
    {phases : List Phase} (hrest : Ran cfg rest between phases s') :
    Ran cfg ((rep, kind) :: rest) s
      (t.timed kind (s.clock.reading 1 - s.clock.reading 0) :: phases) s' where
  names := by
    rw [List.map_cons, List.map_cons, hrest.names]
    rfl
  phaseOf := List.forall_mem_cons.mpr ⟨(phaseOf_work h _).1, hrest.phaseOf⟩
  elapsed := by
    intro j p hp
    cases j with
    | zero =>
      cases hp
      rfl
    | succ j =>
      rw [hrest.elapsed j p hp]
      simp only [hclock, Clock.reading_tick]
      rfl
  clock := by
    intro k
    rw [hrest.clock k, hclock, Clock.reading_tick, Clock.reading_tick, List.length_cons]
    congr 1
    omega
  counter := by
    rw [hrest.counter, hcounter, (phaseOf_work h 0).2, ite_self, if_neg (List.cons_ne_nil _ _)]

/-- A plan that is run to its end has run its first phase and then, with a note on that phase, the
others. -/
theorem exists_of_runPlan_cons {entry : Nat × PhaseKind} {rest : List (Nat × PhaseKind)}
    {phases : List Phase} (h : runPlan cfg (entry :: rest) s = (.ok phases, s')) :
    ∃ (t : Tally) (after : Counter) (p : Phase) (later : List Phase),
      cfg.work entry.2 s.counter = (.ok t, after) ∧
      p = t.timed entry.2 (s.clock.reading 1 - s.clock.reading 0) ∧ phases = p :: later ∧
      runPlan cfg rest
        ⟨after, s.clock.tick.2.tick.2, s.log ++ t.log ++ [note entry.1 p]⟩ = (.ok later, s') := by
  rw [runPlan] at h
  rcases hwork : cfg.work entry.2 s.counter with ⟨outcome, after⟩
  cases outcome with
  | error e =>
    rw [Bench.timed, hwork] at h
    cases h
  | ok t =>
    rw [timed_ok hwork] at h
    dsimp only [Bench.report] at h
    generalize hlater : runPlan cfg rest _ = ran at h
    obtain ⟨outcome, last⟩ := ran
    cases outcome with
    | error e => cases h
    | ok later =>
      cases h
      exact ⟨t, after, _, later, rfl, rfl, rfl, hlater⟩

/-- **A plan that is run to its end** has made phases of which all of this holds. -/
theorem ran_of_runPlan {plan : List (Nat × PhaseKind)} {phases : List Phase}
    (h : runPlan cfg plan s = (.ok phases, s')) : Ran cfg plan s phases s' := by
  induction plan generalizing s phases with
  | nil =>
    cases h
    exact .nil _
  | cons entry rest ih =>
    obtain ⟨t, after, p, later, hwork, rfl, rfl, hrest⟩ := exists_of_runPlan_cons h
    exact .cons hwork rfl rfl (ih hrest)

/-- If every phase of a plan has a result, so has the plan. -/
theorem exists_runPlan_of_mem {plan : List (Nat × PhaseKind)}
    (hwork : ∀ entry ∈ plan, ∀ c : Counter,
      ∃ (t : Tally) (after : Counter), cfg.work entry.2 c = (.ok t, after)) (s : Bench) :
    ∃ (phases : List Phase) (s' : Bench), runPlan cfg plan s = (.ok phases, s') := by
  induction plan generalizing s with
  | nil => exact ⟨[], s, rfl⟩
  | cons entry rest ih =>
    obtain ⟨hentry, hrest⟩ := List.forall_mem_cons.mp hwork
    obtain ⟨t, after, htally⟩ := hentry s.counter
    rw [runPlan, timed_ok htally]
    simp only
    obtain ⟨phases, s', hlater⟩ := ih hrest _
    exact ⟨_, s', by rw [hlater]⟩

theorem exists_runPlan (hwork : ∀ (kind : PhaseKind) (c : Counter),
      ∃ (t : Tally) (after : Counter), cfg.work kind c = (.ok t, after))
    (plan : List (Nat × PhaseKind)) (s : Bench) :
    ∃ (phases : List Phase) (s' : Bench), runPlan cfg plan s = (.ok phases, s') :=
  exists_runPlan_of_mem (fun entry _ => hwork entry.2) s

end Bench

/-! ## The whole plan -/

/-- The phases of a plan, by name: those of one repetition, again and again. -/
theorem BenchConfig.map_plan (cfg : BenchConfig) :
    cfg.plan.map (fun entry => entry.2.name)
      = (List.replicate (max 1 cfg.repetitions).toNat
          (if cfg.parallel then ["parallel", "serial"] else ["serial"])).flatten := by
  have hkinds : cfg.kinds.map PhaseKind.name
      = if cfg.parallel then ["parallel", "serial"] else ["serial"] := by
    rw [kinds]
    split_ifs <;> rfl
  rw [plan, List.map_flatMap, List.flatMap_def, ← hkinds]
  simp only [List.map_map]
  show ((List.range (max 1 cfg.repetitions).toNat).map fun _ =>
    cfg.kinds.map PhaseKind.name).flatten = _
  rw [List.map_const', List.length_range]

theorem BenchConfig.serial_mem_kinds (cfg : BenchConfig) : .serial ∈ cfg.kinds := by
  rw [kinds]
  split_ifs <;> simp

/-- Every plan begins with the phases of one repetition. -/
theorem BenchConfig.mem_plan {kind : PhaseKind} (h : kind ∈ cfg.kinds) : (0, kind) ∈ cfg.plan :=
  List.mem_flatMap.mpr ⟨0, List.mem_range.mpr (by omega), List.mem_map_of_mem h⟩

/-! ## The survey -/

/-- A block answers what it would answer untracked. -/
theorem tracked_answers {α : Type} {P : α → Prop} (around : Surroundings) (enabled : Bool)
    (name : String) (store : Option (Setting Path)) {block : Bool → Action α}
    (h : ∀ tracked, (block tracked).Answers P) :
    (Tracking.tracked around enabled name store block).Answers P := by
  rw [Tracking.tracked]
  split_ifs
  · exact h false
  · exact .after fun _ => h false
  · exact .after fun _ => .after fun _ => (h true).afterwards _

/-- What holds of the phases of so many benchmarks. -/
structure Measured (cfg : BenchConfig) (runs : Nat) (ps : List Phase) : Prop where
  nodes : ∀ p ∈ ps, p.nodes = cfg.total
  kinds : 0 < runs → ∀ kind ∈ cfg.kinds, ∃ p ∈ ps, p.name = kind.name
  empty : runs = 0 → ps = []

theorem Measured.append {n m : Nat} {ps qs : List Phase} (hp : Measured cfg n ps)
    (hq : Measured cfg m qs) : Measured cfg (n + m) (ps ++ qs) where
  nodes := by
    intro p hmem
    rcases List.mem_append.mp hmem with h | h
    · exact hp.nodes p h
    · exact hq.nodes p h
  kinds := by
    intro hpos kind hkind
    rcases Nat.add_pos_iff_pos_or_pos.mp hpos with h | h
    · obtain ⟨p, hmem, hname⟩ := hp.kinds h kind hkind
      exact ⟨p, List.mem_append_left qs hmem, hname⟩
    · obtain ⟨p, hmem, hname⟩ := hq.kinds h kind hkind
      exact ⟨p, List.mem_append_right ps hmem, hname⟩
  empty := by
    intro hzero
    rw [hp.empty (by omega), hq.empty (by omega), List.append_nil]

theorem Bench.measured_of_run {s s' : Bench} {phases : List Phase}
    (h : s.run cfg = (.ok phases, s')) : Measured cfg 1 phases where
  nodes := fun p hp => ((ran_of_runPlan h).phaseOf p hp).nodes
  kinds := by
    intro _ kind hkind
    have hname : kind.name ∈ phases.map Phase.name := by
      rw [(ran_of_runPlan h).names]
      exact List.mem_map.mpr ⟨(0, kind), BenchConfig.mem_plan hkind, rfl⟩
    exact List.mem_map.mp hname
  empty := by
    intro hone
    cases hone

namespace Survey

/-- What holds of the phases of one benchmark, and is kept when phases are put together, holds of
the phases of so many benchmarks. -/
theorem phases_answers_of_append {P : Nat → List Phase → Prop} (hzero : P 0 [])
    (hone : (Action.benchmark cfg).Answers (P 1))
    (happend : ∀ {n m : Nat} {ps qs : List Phase}, P n ps → P m qs → P (n + m) (ps ++ qs))
    (runs : Nat) : (phases cfg runs).Answers (P runs) := by
  induction runs with
  | zero => exact .pure hzero
  | succ runs ih =>
    refine hone.bind fun first hfirst => ih.bind fun rest hrest => .pure ?_
    rw [Nat.add_comm]
    exact happend hfirst hrest

theorem phases_answers (cfg : BenchConfig) (runs : Nat) :
    (phases cfg runs).Answers (Measured cfg runs) :=
  phases_answers_of_append ⟨by simp, fun h => absurd h (by decide), fun _ => rfl⟩
    (Action.benchmark_answers fun _ _ _ => Bench.measured_of_run) Measured.append runs

/-- If the benchmark has a result wherever it starts, so has any number of them. -/
theorem exists_phases
    (hrun : ∀ s : Bench, ∃ (phases : List Phase) (s' : Bench), s.run cfg = (.ok phases, s'))
    (runs : Nat) (s : Session) :
    ∃ (ps : List Phase) (after : Session), (phases cfg runs).perform s = (.ok ps, after) := by
  induction runs generalizing s with
  | zero => exact ⟨[], s, rfl⟩
  | succ runs ih =>
    obtain ⟨first, b, hfirst⟩ := hrun { clock := s.clock }
    obtain ⟨rest, after, hrest⟩ := ih { s with clock := b.clock, log := s.log ++ b.log }
    refine ⟨first ++ rest, after, ?_⟩
    rw [phases, Action.perform_bind, Action.perform_benchmark, hfirst]
    simp only [Action.perform_bind, hrest, Action.perform_pure]

/-- The nodes that are kept under a name are those of some phase. -/
theorem eq_of_get?_nodesByName {runs : Nat} {ps : List Phase} (h : Measured cfg runs ps)
    {name : String} {n : Int} (hn : (nodesByName ps).get? name = some n) :
    n = cfg.total ∧ 0 < runs := by
  rw [nodesByName, Fields.get?_ofList] at hn
  obtain ⟨before, behind, hsplit, -⟩ := List.lookup_eq_some_iff.mp hn
  have hmem : (name, n) ∈ ps.map fun p => (p.name, p.nodes) := by
    rw [← List.mem_reverse, hsplit]
    simp
  obtain ⟨p, hp, heq⟩ := List.mem_map.mp hmem
  cases heq
  refine ⟨h.nodes p hp, Nat.pos_of_ne_zero fun hzero => ?_⟩
  exact List.ne_nil_of_mem hp (h.empty hzero)

/-- **Each kind of phase is kept with the same total.** -/
theorem get?_nodesByName {runs : Nat} {ps : List Phase} (h : Measured cfg runs ps)
    (hruns : 0 < runs) {kind : PhaseKind} (hkind : kind ∈ cfg.kinds) :
    (nodesByName ps).get? kind.name = some cfg.total := by
  cases hkept : (nodesByName ps).get? kind.name with
  | some n => rw [(eq_of_get?_nodesByName h hkept).1]
  | none =>
    obtain ⟨p, hp, hname⟩ := h.kinds hruns kind hkind
    have hmem : (kind.name, p.nodes) ∈ (ps.map fun p => (p.name, p.nodes)).reverse :=
      List.mem_reverse.mpr (List.mem_map.mpr ⟨p, hp, by rw [hname]⟩)
    rw [nodesByName, Fields.get?_ofList, List.lookup_eq_none_iff] at hkept
    simpa using hkept _ hmem

theorem differing_eq_none {runs : Nat} {ps : List Phase} (h : Measured cfg runs ps) :
    (((nodesByName ps).get? PhaseKind.parallel.name).filter fun n =>
      n != ((nodesByName ps).get? PhaseKind.serial.name).getD 0) = none := by
  cases hparallel : (nodesByName ps).get? PhaseKind.parallel.name with
  | none => rfl
  | some n =>
    obtain ⟨rfl, hruns⟩ := eq_of_get?_nodesByName h hparallel
    rw [get?_nodesByName h hruns cfg.serial_mem_kinds]
    simp

/-- A status of `1` is only answered when the totals differ, and they do not. -/
theorem block_answers (around : Surroundings) (r : Request) (runs : Nat) (parallel tracked : Bool) :
    (block around r runs parallel tracked).Answers (· ≠ 1) := by
  rw [block]
  -- Tracking only adds requests before and after, so both cases meet the same comparison.
  cases tracked
  case' true => refine .after fun _ => ?_
  all_goals
    refine .after fun iterations => (phases_answers _ runs).bind fun ps hps => ?_
    simp only [differing_eq_none hps]
    refine .after fun means => .after fun _ => .after fun out => .after fun _ => ?_
  case false => exact .pure (by decide)
  case true => exact .after fun _ => .after fun _ => .pure (by decide)

theorem perform_answers (around : Surroundings) (r : Request) :
    (perform around r).Answers (· ≠ 1) := by
  rw [perform]
  refine .after fun runs => ?_
  let parallel := parallelSupported around.environment.platform
  have hblock := tracked_answers (P := (· ≠ 1)) around (r.tracking == .value "mlflow")
    "benchmarks" (some (.value r.store)) fun tracked =>
      block_answers around r runs.toNat parallel tracked
  split_ifs
  · exact .after fun _ => .pure (by decide)
  · dsimp only
    split_ifs
    · exact .after fun _ => hblock
    · exact hblock

end Survey

/-! ## Benchmarks and surveys -/

/-- The iteration count that is run: the one asked for if it is positive, else one. -/
theorem normalIterations_eq (iterations : Option Int) :
    normalIterations iterations
      = match iterations with
        | some n => if 0 < n then n else 1
        | none => 1 := by
  cases iterations with
  | none => rfl
  | some n =>
    simp only [normalIterations, ← Int.not_lt, defaultIterations]
    split_ifs <;> rfl

/-- **Benchmarks.**  A benchmark over openings on the board has a result: the phases of so many
repetitions, each with its parallel phase, if any, before the serial one.  All phases count the same
nodes and find the same scores, whatever the counter held before, and the counter is left at that
total.  The clock is read twice for each phase, and for nothing else.

However often it is run, each kind of phase is then kept with that total.  So the survey never ends
with the status `1`, which says that the two totals differ. -/
theorem benchmark_phases :
    (∀ (cfg : BenchConfig) (executor : Executor), cfg.executor = .value executor.name →
      cfg.moves ≠ [] → (∀ move ∈ cfg.moves, 0 ≤ move ∧ move ≤ 8) →
        let n : Int := match cfg.iterations with
          | some k => if 0 < k then k else 1
          | none => 1
        let nodes : Int := n * (cfg.moves.map fun move =>
          ((solve cfg.pruning (openingBoard move.toNat) move).nodes : Int)).sum
        (∀ s : Bench, ∃ (phases : List Phase) (s' : Bench), s.run cfg = (.ok phases, s')
          ∧ phases.map Phase.name
            = (List.replicate (max 1 cfg.repetitions).toNat
                (if cfg.parallel then ["parallel", "serial"] else ["serial"])).flatten
          ∧ (∀ p ∈ phases, p.iterations = n ∧ p.nodes = nodes
              ∧ ∀ move, p.scores.lookup move
                = if move ∈ cfg.moves then some (scoreOf cfg.pruning n move) else none)
          ∧ (∀ (j : Nat) (p : Phase), phases[j]? = some p →
              p.elapsed = s.clock.reading (2 * j + 1) - s.clock.reading (2 * j))
          ∧ (∀ k, s'.clock.reading k = s.clock.reading (2 * phases.length + k))
          ∧ s'.counter.value = nodes)
        ∧ ∀ (runs : Nat) (session : Session), 0 < runs →
          ∃ (ps : List Phase) (after : Session),
            (Survey.phases cfg runs).perform session = (.ok ps, after)
              ∧ (Survey.nodesByName ps).get? "serial" = some nodes
              ∧ (cfg.parallel = true → (Survey.nodesByName ps).get? "parallel" = some nodes))
      ∧ ∀ (around : Surroundings) (r : Survey.Request) (session : Session),
          ((Survey.perform around r).perform session).1 ≠ .ok 1 := by
  refine ⟨fun cfg executor hexecutor hne hmoves => ?_, fun around r session hone => ?_⟩
  · intro n nodes
    have hn : normalIterations cfg.iterations = n := normalIterations_eq cfg.iterations
    have hnodes : cfg.total = nodes := by
      rw [BenchConfig.total, totalCalls_of_accepted cfg.pruning (accepted_normal hmoves), hn]
    have hresult := Bench.exists_runPlan (exists_work hexecutor hne hmoves) cfg.plan
    refine ⟨fun s => ?_, fun runs session hruns => ?_⟩
    · obtain ⟨phases, s', hrun⟩ := hresult s
      have hran := Bench.ran_of_runPlan hrun
      have hplan := List.ne_nil_of_mem (BenchConfig.mem_plan cfg.serial_mem_kinds)
      refine ⟨phases, s', hrun, hran.names.trans cfg.map_plan, fun p hp => ?_, hran.elapsed,
        hran.clock, ?_⟩
      · have hphase := hran.phaseOf p hp
        exact ⟨hphase.iterations.trans hn, hphase.nodes.trans hnodes, hn ▸ hphase.scores⟩
      · rw [hran.counter, if_neg hplan, hnodes]
    · obtain ⟨ps, after, hps⟩ := Survey.exists_phases hresult runs session
      have hmeasured := Survey.phases_answers cfg runs session after ps hps
      rw [← hnodes]
      refine ⟨ps, after, hps, Survey.get?_nodesByName hmeasured hruns cfg.serial_mem_kinds,
        fun hparallel => ?_⟩
      have hkind : .parallel ∈ cfg.kinds := by
        rw [BenchConfig.kinds, if_pos hparallel]
        exact List.mem_cons_self
      exact Survey.get?_nodesByName hmeasured hruns hkind
  · exact Survey.perform_answers around r session _ 1 (Prod.ext hone rfl) rfl

/-- Two repetitions over the centre, the corner and the centre again, with a count that stands for
one, and with a counter that was left at `7`; and what three runs of that keep. -/
theorem benchmark_phases_repeated :
    let cfg : BenchConfig :=
      { iterations := some 0, executor := .value "process", repetitions := 2, moves := [4, 0, 4] }
    cfg.executor = .value Executor.processes.name ∧ cfg.moves ≠ []
      ∧ (∀ move ∈ cfg.moves, 0 ≤ move ∧ move ≤ 8) ∧ 0 < 3 ∧ cfg.parallel = true
      ∧ (∃ (phases : List Phase) (s' : Bench),
        Bench.run { counter := ⟨7⟩ } cfg = (.ok phases, s')
          ∧ phases.map Phase.name = ["parallel", "serial", "parallel", "serial"]
          ∧ ∀ p ∈ phases, p.iterations = 1 ∧ p.nodes = s'.counter.value)
      ∧ ∃ (ps : List Phase) (after : Session),
        (Survey.phases cfg 3).perform {} = (.ok ps, after)
          ∧ (Survey.nodesByName ps).get? "serial" = (Survey.nodesByName ps).get? "parallel" := by
  intro cfg
  have hmoves : ∀ move ∈ cfg.moves, 0 ≤ move ∧ move ≤ 8 := by decide
  obtain ⟨hbench, hsurvey⟩ :=
    benchmark_phases.1 cfg .processes rfl (List.cons_ne_nil _ _) hmoves
  obtain ⟨phases, s', hrun, hnames, hphases, -, -, hcounter⟩ := hbench { counter := ⟨7⟩ }
  obtain ⟨ps, after, hps, hserial, hparallel⟩ := hsurvey 3 {} (by decide)
  refine ⟨rfl, List.cons_ne_nil _ _, hmoves, by decide, rfl,
    ⟨phases, s', hrun, hnames, fun p hp => ?_⟩, ps, after, hps, hserial.trans (hparallel rfl).symm⟩
  exact ⟨(hphases p hp).1, (hphases p hp).2.1.trans hcounter.symm⟩

end Noughts
