import Noughts.Proofs.BenchmarkLogs
import Noughts.Proofs.CommandLines
import Noughts.Proofs.Sessions
import Noughts.Tool

/-!
# The commands `solve` and `bench`

What the two commands leave behind, and the status that the tool ends with.

* `solve` searches one opening so many times (`perform_solve`), or it is refused: for its count by
  the command, and for its cell by the run.
* `bench` runs its phases and logs them (`perform_bench`).  It is refused for its repetitions before
  anything is run (`perform_bench_of_nonpos`), and for workers of no kind when the parallel phase
  wants them (`perform_bench_of_blank`).  No command line can name another kind
  (`executor_of_read`), but one that gives the name as two dashes gives none.
-/

set_option autoImplicit false

namespace Noughts.Tool

open CommandLine

/-! ## Requests -/

/-- The words behind a command, as the command line of the command reads them. -/
def Behind (arguments : List String) (name : String) (g : Grammar) (given : Reading) : Prop :=
  ∃ outer words, grammar.read arguments = .ok outer ∧ outer.command = some (name, words)
    ∧ g.read words = .ok given

section Requests

variable {arguments : List String} {i : Invocation}

theorem exists_of_map {ε α β : Type} {x : Except ε α} {f : α → β} {b : β}
    (h : x.map f = .ok b) : ∃ a, x = .ok a ∧ f a = b := by
  cases x with
  | error e => cases h
  | ok a =>
    cases h
    exact ⟨a, rfl, rfl⟩

/-- Each command has its own grammar. -/
theorem readCommand_cases {name : String} {words extras : List String} {c : Command}
    (h : readCommand name words = .ok (c, extras)) :
    (name = "bench"
        ∧ ∃ given, benchGrammar.read words = .ok given ∧ c = .bench (benchRequest given))
      ∨ (name = "solve"
        ∧ ∃ given, solveGrammar.read words = .ok given ∧ c = .solve (solveRequest given))
      ∨ c = .selfCheck ∨ c = .openings := by
  unfold readCommand at h
  split at h
  all_goals
    obtain ⟨given, hgiven, hpair⟩ := exists_of_map h
    cases hpair
  · exact .inl ⟨rfl, given, hgiven, rfl⟩
  · exact .inr (.inl ⟨rfl, given, hgiven, rfl⟩)
  · exact .inr (.inr (.inl rfl))
  · exact .inr (.inr (.inr rfl))

/-- A command is read from the words behind its name. -/
theorem exists_of_read {c : Command} (hread : Invocation.read arguments = .ok i)
    (hcommand : i.command = some c) :
    ∃ outer name words extras, grammar.read arguments = .ok outer
      ∧ outer.command = some (name, words) ∧ readCommand name words = .ok (c, extras) := by
  obtain ⟨outer, houter, h⟩ := exists_of_bind hread
  dsimp only at h
  split at h
  · obtain ⟨_, -, h⟩ := exists_of_bind h
    cases h
    cases hcommand
  · next name words hname =>
    obtain ⟨⟨c', extras⟩, hc, h⟩ := exists_of_bind h
    obtain ⟨_, -, h⟩ := exists_of_bind h
    cases h
    cases hcommand
    exact ⟨outer, name, words, extras, houter, hname, hc⟩

/-- What is asked for with a command stands behind its name. -/
theorem behind_cases {c : Command} (hread : Invocation.read arguments = .ok i)
    (hcommand : i.command = some c) :
    (∃ given, Behind arguments "bench" benchGrammar given ∧ c = .bench (benchRequest given))
      ∨ (∃ given, Behind arguments "solve" solveGrammar given ∧ c = .solve (solveRequest given))
      ∨ c = .selfCheck ∨ c = .openings := by
  obtain ⟨outer, name, words, extras, houter, hname, hc⟩ := exists_of_read hread hcommand
  obtain ⟨rfl, given, hgiven, hrequest⟩ | ⟨rfl, given, hgiven, hrequest⟩ | hother :=
    readCommand_cases hc
  · exact .inl ⟨given, ⟨outer, words, houter, hname, hgiven⟩, hrequest⟩
  · exact .inr (.inl ⟨given, ⟨outer, words, houter, hname, hgiven⟩, hrequest⟩)
  · exact .inr (.inr hother)

theorem behind_of_bench {request : BenchRequest} (hread : Invocation.read arguments = .ok i)
    (hcommand : i.command = some (.bench request)) :
    ∃ given, Behind arguments "bench" benchGrammar given ∧ request = benchRequest given := by
  obtain ⟨given, hbehind, hrequest⟩ | ⟨_, -, hother⟩ | hother | hother :=
    behind_cases hread hcommand
  · cases hrequest
    exact ⟨given, hbehind, rfl⟩
  all_goals cases hother

theorem behind_of_solve {request : SolveRequest} (hread : Invocation.read arguments = .ok i)
    (hcommand : i.command = some (.solve request)) :
    ∃ given, Behind arguments "solve" solveGrammar given ∧ request = solveRequest given := by
  obtain ⟨_, -, hother⟩ | ⟨given, hbehind, hrequest⟩ | hother | hother :=
    behind_cases hread hcommand
  · cases hother
  · cases hrequest
    exact ⟨given, hbehind, rfl⟩
  all_goals cases hother

/-- **The kind of worker is one of the two, or none is named.** -/
theorem executor_of_behind {given : Reading} (h : Behind arguments "bench" benchGrammar given) :
    (benchRequest given).executor = .blank
      ∨ ∃ e : Executor, (benchRequest given).executor = .value e.name := by
  obtain ⟨-, words, -, -, hgiven⟩ := h
  have hkind : ∀ s ∈ benchGrammar.switches, s.key = "--executor" →
      s.kind = .choice (Executor.all.map Executor.name) := by decide
  match htext : given.text? "--executor" with
  | none =>
    refine .inr ⟨.threads, ?_⟩
    show (given.text? "--executor").getD (.value Executor.threads.name) = _
    rw [htext, Option.getD_none]
  | some setting =>
    have hsetting : (benchRequest given).executor = setting := by
      show (given.text? "--executor").getD (.value Executor.threads.name) = _
      rw [htext, Option.getD_some]
    rw [hsetting]
    obtain hblank | ⟨name, hname, heq⟩ := (read_admits hgiven).text?_of_choice hkind htext
    · exact .inl hblank
    · obtain ⟨e, -, rfl⟩ := List.mem_map.mp hname
      exact .inr ⟨e, heq⟩

end Requests

/-! ## Refusals -/

section Refusals

variable {a : Action Nat} {s after : Session}

theorem perform_refusing_ok {status : Nat} (h : a.perform s = (.ok status, after)) :
    (refusing a).perform s = (.ok status, after) := by
  rw [refusing, Action.perform_tryCatch, h]

/-- An invalid value becomes an error record. -/
theorem perform_refusing_error {e : Failure} (h : a.perform s = (.error e, after))
    (he : e.isInvalidValue = true) :
    (refusing a).perform s
      = (.ok 2, { after with log := after.log ++ [⟨.error, e.message⟩] }) := by
  rw [refusing, Action.perform_tryCatch, h]
  simp only [if_pos he]
  rfl

end Refusals

/-! ## `solve` -/

section Solve

variable {r : SolveRequest} {opening iterations : Int}

/-- The records of a search that was done. -/
def solveLog (pruning : Pruning) (opening iterations : Int) : Log :=
  [⟨.debug, "start board:\n" ++ openingDrawing opening⟩,
   ⟨.info, "opening=" ++ toString opening ++ " score=" ++ "tie" ++ " nodes="
      ++ toString (iterations * (Noughts.solve pruning (openingBoard opening.toNat) opening).nodes)
      ++ " iterations=" ++ toString iterations⟩]

theorem perform_solve (hopening : r.opening = .value opening)
    (hiterations : r.iterations = .value iterations) (hpos : 1 ≤ iterations)
    (hcell : 0 ≤ opening ∧ opening ≤ 8) (s : Session) :
    (solve r).perform s
      = (.ok 0, { s with log := s.log ++ solveLog r.pruning opening iterations }) := by
  obtain ⟨cell, rfl⟩ := Int.eq_ofNat_of_zero_le hcell.1
  obtain ⟨n, rfl⟩ := Int.eq_ofNat_of_zero_le (Int.le_trans (by decide) hpos)
  have hcell' : cell < 9 := by omega
  have hrun := runOpening_tie hcell' r.pruning n
  rw [solve, hiterations, Action.perform_bind_ok s (Action.perform_needed_value s _ _),
    if_neg (by omega), hopening, Action.perform_bind_ok s (Action.perform_needed_value s _ _), hrun,
    Action.perform_bind_ok s (Action.perform_ofExcept_ok s _ _),
    Action.perform_bind_ok s (Action.perform_change s _),
    Action.perform_bind_ok _ (Action.perform_report _ _ _)]
  have hn : n ≠ 0 := by omega
  have hname : Score.tie.name = "tie" := by decide
  have hnodes (k : Nat) : toString ((n : Int) * (k : Int)) = toString (n * k) := by
    rw [← Int.natCast_mul]
    rfl
  simp only [if_neg hn, hname]
  rw [Action.perform_bind_ok _ (Action.perform_report _ _ _), Action.perform_pure, solveLog,
    Int.toNat_natCast, hnodes, List.append_nil, List.append_assoc]
  rfl

/-- **A search that is refused**, for its count or for its cell, leaves an error record only. -/
theorem perform_solve_refused (hopening : r.opening = .value opening)
    (hiterations : r.iterations = .value iterations)
    (hbad : ¬(1 ≤ iterations ∧ 0 ≤ opening ∧ opening ≤ 8)) (s : Session) :
    ∃ text, (refusing (solve r)).perform s
      = (.ok 2, { s with log := s.log ++ [⟨.error, text⟩] }) := by
  by_cases hpos : iterations ≤ 0
  · refine ⟨"--iterations must be > 0", perform_refusing_ok ?_⟩
    rw [solve, hiterations, Action.perform_bind_ok s (Action.perform_needed_value s _ _),
      if_pos hpos]
    rfl
  · have hcell : ¬(0 ≤ opening ∧ opening ≤ 8) := fun hcell => hbad ⟨by omega, hcell⟩
    have hrefusal : refusal? iterations opening = some (.openingOutside opening) := if_neg hcell
    refine ⟨_, perform_refusing_error (e := .phase (.run (.openingOutside opening))) ?_ rfl⟩
    rw [solve, hiterations, Action.perform_bind_ok s (Action.perform_needed_value s _ _),
      if_neg hpos, hopening, Action.perform_bind_ok s (Action.perform_needed_value s _ _),
      runOpening_of_refusal hrefusal,
      Action.perform_bind_error s (Action.perform_ofExcept_error s _ _)]

end Solve

/-! ## `bench` -/

section Bench

variable {around : Surroundings} {r : BenchRequest} {cfg : BenchConfig} {s : Session}

/-- Lines as they are logged at the usual level. -/
def infos (lines : List String) : Log := lines.map fun line => ⟨.info, line⟩

theorem perform_reportLines (lines : List String) (s : Session) :
    (reportLines lines).perform s = (.ok (), { s with log := s.log ++ infos lines }) := by
  induction lines generalizing s with
  | nil =>
    rw [infos, List.map_nil, List.append_nil]
    rfl
  | cons line rest ih =>
    have hrest := ih { s with log := s.log ++ [⟨.info, line⟩] }
    refine (Action.perform_bind_ok s (Action.perform_report s _ _) _).trans (hrest.trans ?_)
    simp only [infos, List.map_cons, List.append_assoc, List.singleton_append]

/-- A report can be written to where it is wanted, if it is: the commit can be told, and a file can
be made there. -/
def CanReport (around : Surroundings) (t : FileTree) : Option (Setting Path) → Prop
  | none => True
  | some .blank => False
  | some (.value out) =>
    (∃ root commit, around.repositoryRoot t = .ok root
        ∧ currentCommit t around.workingDirectory root around.commitQuery = .ok commit)
      ∧ t.CanMake around.workingDirectory out

/-- The record of a report that was written. -/
def reportLog : Option (Setting Path) → Log
  | some (.value out) => [⟨.info, "Wrote report to: " ++ out.text⟩]
  | _ => []

/-- What is logged of the phases of a benchmark: a note on each while they run, their lines when
all of them have run, and how their times are distributed if there are more repetitions than one. -/
def phasesLog (cfg : BenchConfig) (phases : List Phase) : Log :=
  Bench.notes cfg.plan phases ++ infos (phases.flatMap phaseLines)
    ++ if 1 < cfg.repetitions then
        infos ((phaseSummaries phases).map fun s => distributionLine s.1 s.2)
      else []

/-- The report is where it was wanted, if it was. -/
def ReportedTo (around : Surroundings) (cfg : BenchConfig) (phases : List Phase) (after : Session)
    (out : Option (Setting Path)) : Prop :=
  ∀ path, out = some (.value path) →
    ∃ commit, after.Holds around path (report around commit cfg phases)

theorem exists_perform_writeReport {out : Path}
    (hreport : CanReport around s.files (some (.value out))) (cfg : BenchConfig)
    (phases : List Phase) :
    ∃ after, (writeReport around (.value out) cfg phases).perform s = (.ok out, after)
      ∧ after.log = s.log ++ [⟨.info, "Wrote report to: " ++ out.text⟩]
      ∧ ∃ commit, after.Holds around out (report around commit cfg phases) := by
  obtain ⟨⟨root, commit, hroot, hcommit⟩, hmake⟩ := hreport
  obtain ⟨files, files', hmade, hwrite, hholds⟩ := Action.exists_perform_writeDocument
    (s := { s with questions := s.questions ++ [commitQuestion root] }) hmake
    (report around commit cfg phases)
  refine ⟨{ s with
    questions := s.questions ++ [commitQuestion root], files := files',
    log := s.log ++ [⟨.info, "Wrote report to: " ++ out.text⟩] }, ?_, rfl, commit, hholds⟩
  rw [writeReport, Action.perform_bind_ok s (Action.perform_commit_of_eq hroot hcommit),
    Action.perform_bind_ok _ (Action.perform_needed_value _ _ _), Action.perform_bind_ok _ hmade,
    Action.perform_bind_ok _ hwrite]
  rfl

/-- **The phases are logged when all of them have run**, and then the report is written. -/
theorem exists_perform_benchBlock {phases : List Phase} {b : Bench}
    (hrun : Bench.run { clock := s.clock } cfg = (.ok phases, b)) {out : Option (Setting Path)}
    (hreport : CanReport around s.files out) :
    ∃ after, (benchBlock around out cfg false).perform s = (.ok (), after)
      ∧ after.log = s.log ++ phasesLog cfg phases ++ reportLog out
      ∧ ReportedTo around cfg phases after out := by
  have hnotes : b.log = Bench.notes cfg.plan phases := Bench.log_of_runPlan hrun
  have hbenchmark : (Action.benchmark cfg).perform s
      = (.ok phases, { s with clock := b.clock, log := s.log ++ b.log }) := by
    rw [Action.perform_benchmark, hrun]
  -- What is logged before the report does not depend on whether there is one.
  have hlogged : ∀ (rest : Action Unit),
      (do
        reportLines (phases.flatMap phaseLines)
        if 1 < cfg.repetitions then
          reportLines ((phaseSummaries phases).map fun s => distributionLine s.1 s.2)
        rest : Action Unit).perform { s with clock := b.clock, log := s.log ++ b.log }
      = rest.perform { s with clock := b.clock, log := s.log ++ phasesLog cfg phases } := by
    intro rest
    rw [Action.perform_bind_ok _ (perform_reportLines _ _), hnotes, phasesLog]
    dsimp only
    split_ifs
    · rw [Action.perform_bind_ok _ (perform_reportLines _ _)]
      simp only [List.append_assoc]
    · simp only [List.append_assoc, List.append_nil]
  rw [benchBlock, if_neg Bool.false_ne_true, Action.perform_bind_ok s hbenchmark]
  match out, hreport with
  | none, _ =>
    refine ⟨_, (hlogged (pure ())).trans (Action.perform_pure _ _), (List.append_nil _).symm, ?_⟩
    intro path h
    cases h
  | some (.value path), hreport =>
    obtain ⟨after, hafter, hlog, hholds⟩ := exists_perform_writeReport
      (s := { s with clock := b.clock, log := s.log ++ phasesLog cfg phases }) hreport cfg phases
    refine ⟨after, (hlogged _).trans ((Action.perform_bind_ok _ hafter fun _ => pure ()).trans
      (Action.perform_pure _ _)), hlog, ?_⟩
    intro path' h
    cases h
    exact hholds

/-- A phase that fails ends the benchmark. -/
theorem perform_benchBlock_of_error {e : PhaseError} {b : Bench}
    (hrun : Bench.run { clock := s.clock } cfg = (.error e, b)) {out : Option (Setting Path)} :
    (benchBlock around out cfg false).perform s
      = (.error (.phase e), { s with clock := b.clock, log := s.log ++ b.log }) := by
  rw [benchBlock, if_neg Bool.false_ne_true]
  refine Action.perform_bind_error s ?_ _
  rw [Action.perform_benchmark, hrun]

/-- The note that there will be no parallel phase, although nobody has turned it off. -/
def skipLog (r : BenchRequest) (parallel : Bool) : Log :=
  if !r.serialOnly && !parallel then
    [⟨.info, "single-threaded environment detected; skipping parallel phase"⟩]
  else []

/-- Too few repetitions are refused before anything is run. -/
theorem perform_bench_of_nonpos {repetitions : Int}
    (hrepetitions : r.repetitions = .value repetitions) (hnonpos : repetitions ≤ 0) (s : Session) :
    (bench around r).perform s
      = (.ok 2, { s with log := s.log ++ [⟨.error, "--repeat must be > 0"⟩] }) := by
  rw [bench, hrepetitions, Action.perform_bind_ok s (Action.perform_needed_value s _ _),
    if_pos hnonpos]
  rfl

/-- A benchmark that is not tracked is its block, behind a note if the parallel phase is skipped. -/
theorem perform_bench_untracked {repetitions : Int}
    (hrepetitions : r.repetitions = .value repetitions) (hpos : 0 < repetitions)
    (htracking : r.tracking = false) (s : Session) :
    let parallel := parallelSupported around.environment.platform
    (bench around r).perform s
      = (do
          benchBlock around r.out (r.config repetitions parallel) false
          return 0 : Action Nat).perform { s with log := s.log ++ skipLog r parallel } := by
  intro parallel
  rw [bench, hrepetitions, Action.perform_bind_ok s (Action.perform_needed_value s _ _),
    if_neg (Int.not_le.mpr hpos), htracking]
  dsimp only
  rw [skipLog]
  split_ifs
  · exact Action.perform_bind_ok s (Action.perform_report s _ _) _
  · rw [List.append_nil]
    rfl

/-- Workers of no kind are refused when the parallel phase wants them, and nothing has been run. -/
theorem perform_bench_of_blank {repetitions : Int}
    (hrepetitions : r.repetitions = .value repetitions) (hpos : 0 < repetitions)
    (htracking : r.tracking = false) (hexecutor : r.executor = .blank)
    (hserial : r.serialOnly = false)
    (hparallel : parallelSupported around.environment.platform = true) (s : Session) :
    (refusing (bench around r)).perform s
      = (.ok 2, { s with log := s.log ++ [⟨.error, "Unknown executor: []"⟩] }) := by
  have hskip : skipLog r true = [] := by rw [skipLog, Bool.not_true, Bool.and_false]; rfl
  have hconfig : (r.config repetitions true).parallel = true := by
    show (!r.serialOnly && true) = true
    rw [hserial]
    rfl
  have hname : (r.config repetitions true).executor.shown id = "[]" := by
    show r.executor.shown id = "[]"
    rw [hexecutor]
    rfl
  have hunknown : ∀ executor : Executor,
      (r.config repetitions true).executor.shown id ≠ executor.name := by
    rw [hname]
    intro executor
    cases executor <;> decide
  have hrun := Bench.run_of_unknown_executor hconfig hunknown { clock := s.clock }
  have hfails : (bench around r).perform s
      = (.error (.phase (.unknownExecutor "[]")), s) := by
    rw [perform_bench_untracked hrepetitions hpos htracking, hparallel, hskip, List.append_nil,
      Action.perform_bind_error _ (perform_benchBlock_of_error hrun), hname, List.append_nil]
  exact perform_refusing_error hfails rfl

/-- **A benchmark that is not refused runs its phases**, logs them and writes its report. -/
theorem exists_perform_bench {repetitions : Int}
    (hrepetitions : r.repetitions = .value repetitions) (hpos : 0 < repetitions)
    (htracking : r.tracking = false) {parallel : Bool}
    (hparallel : parallelSupported around.environment.platform = parallel)
    (hexecutor : (!r.serialOnly && parallel) = true →
      ∃ executor : Executor, r.executor = .value executor.name)
    (hreport : CanReport around s.files r.out) :
    ∃ (phases : List Phase) (b : Bench) (after : Session),
      Bench.run { clock := s.clock } (r.config repetitions parallel) = (.ok phases, b)
        ∧ (refusing (bench around r)).perform s = (.ok 0, after)
        ∧ after.log = s.log ++ skipLog r parallel
          ++ phasesLog (r.config repetitions parallel) phases ++ reportLog r.out
        ∧ ReportedTo around (r.config repetitions parallel) phases after r.out := by
  obtain ⟨phases, b, hrun⟩ : ∃ (phases : List Phase) (b : Bench),
      Bench.run { clock := s.clock } (r.config repetitions parallel) = (.ok phases, b) :=
    Bench.exists_run_of_executor (List.cons_ne_nil _ _) openingMoves_onBoard hexecutor _
  obtain ⟨after, hblock, hlog, hreported⟩ := exists_perform_benchBlock
    (s := { s with log := s.log ++ skipLog r parallel }) hrun hreport
  refine ⟨phases, b, after, hrun, perform_refusing_ok ?_, hlog, hreported⟩
  rw [perform_bench_untracked hrepetitions hpos htracking, hparallel,
    Action.perform_bind_ok _ hblock]
  rfl

/-- What stands in a report. -/
theorem at?_report (around : Surroundings) (commit : Option String) (cfg : BenchConfig)
    (phases : List Phase) :
    (report around commit cfg phases).at? ["config", "iterations"]
        = some (.integer (normalIterations cfg.iterations))
      ∧ (report around commit cfg phases).at? ["phases"]
        = some (.list (phases.map phaseDocument)) :=
  ⟨rfl, rfl⟩

/-- A count that is normal already stands for itself. -/
theorem normalIterations_idem (iterations : Option Int) :
    normalIterations (some (normalIterations iterations)) = normalIterations iterations :=
  if_neg (Int.not_le.mpr (normalIterations_pos iterations))

/-- The platforms by name. -/
theorem parallelSupported_eq (platform : Option String) :
    parallelSupported platform = !(platform == some "RVOS" || platform == some "ARMOS") := by
  cases platform with
  | none => decide
  | some name =>
    have hcontains : singleThreadedPlatforms.contains name
        = (name == "RVOS" || name == "ARMOS") := by
      simp only [singleThreadedPlatforms, List.contains_cons, List.contains_nil, Bool.or_false]
    rw [parallelSupported, Option.getD_some, hcontains]
    rfl

/-- What a benchmark that is not tracked has done when it ends well: so many groups of phases, which
all count the same, and a record of them in the log and, if one is wanted, in a file. -/
structure Benched (around : Surroundings) (r : BenchRequest) (repetitions : Int) (serial : Bool)
    (count : Int) (s after : Session) (phases : List Phase) : Prop where
  names : phases.map Phase.name
    = (List.replicate repetitions.toNat
        (if serial then ["serial"] else ["parallel", "serial"])).flatten
  counted : ∀ p ∈ phases, p.iterations = count ∧ p.nodes = count *
    ([0, 1, 4].map fun cell => ((Noughts.solve r.pruning (openingBoard cell) cell).nodes : Int)).sum
  lines : ∀ p ∈ phases, phaseLines p =
    [padded 8 p.name ++ " runtime: " ++ Number.fixed 6 p.elapsed ++ " s",
      "moves:            " ++ toString p.nodes]
    ++ if p.name = "serial" then ["iterations:       " ++ toString count] else []
  logged : after.log = s.log
    ++ skipLog r (parallelSupported around.environment.platform)
    ++ phasesLog (r.config repetitions (parallelSupported around.environment.platform)) phases
    ++ reportLog r.out
  reported : ∀ path, r.out = some (.value path) → ∃ d, after.Holds around path d
    ∧ d.at? ["config", "iterations"] = some (.integer count)
    ∧ d.at? ["phases"] = some (.list (phases.map phaseDocument))

/-- **A benchmark that is not refused** has done all of that. -/
theorem exists_benched {repetitions : Int} (hrepetitions : r.repetitions = .value repetitions)
    (hpos : 0 < repetitions) (htracking : r.tracking = false) {serial : Bool}
    (hserial : serial = (r.serialOnly || !parallelSupported around.environment.platform))
    (hexecutor : serial = false → ∃ executor : Executor, r.executor = .value executor.name)
    (hreport : CanReport around s.files r.out) :
    ∃ (phases : List Phase) (after : Session),
      (refusing (bench around r)).perform s = (.ok 0, after)
        ∧ Benched around r repetitions serial (normalIterations r.iterations) s after phases := by
  have hparallel : (!r.serialOnly && parallelSupported around.environment.platform) = !serial := by
    rw [hserial, Bool.not_or, Bool.not_not]
  obtain ⟨phases, b, after, hrun, hperform, hlog, hreported⟩ :=
    exists_perform_bench hrepetitions hpos htracking rfl
      (fun h => hexecutor (by simpa [hparallel] using h)) hreport
  have hran := Bench.ran_of_runPlan hrun
  have hcount := normalIterations_idem r.iterations
  have hiterated : ∀ p ∈ phases, p.iterations = normalIterations r.iterations := fun p hp =>
    (hran.phaseOf p hp).iterations.trans hcount
  refine ⟨phases, after, hperform,
    ⟨?_, fun p hp => ⟨hiterated p hp, ?_⟩, fun p hp => ?_, hlog, fun path hpath => ?_⟩⟩
  · have hgroup : (r.config repetitions (parallelSupported around.environment.platform)).parallel
        = !serial := hparallel
    have hgroups : (max 1 repetitions).toNat = repetitions.toNat := by omega
    refine hran.names.trans ((BenchConfig.map_plan _).trans ?_)
    rw [hgroup, ← hgroups]
    cases serial <;> rfl
  · rw [(hran.phaseOf p hp).nodes, BenchConfig.total_of_openingMoves rfl, ← hcount]
    rfl
  · rw [phaseLines, hiterated p hp]
    rfl
  · obtain ⟨commit, hholds⟩ := hreported path hpath
    obtain ⟨hiterations, hphases⟩ := at?_report around commit
      (r.config repetitions (parallelSupported around.environment.platform)) phases
    exact ⟨_, hholds, hiterations.trans (congrArg (some ∘ Document.integer) hcount), hphases⟩

end Bench

/-! ## The whole -/

/-- A program that returns with a status, and the session it leaves. -/
def Returns (t : Transcript) (status : Nat) (after : Session) : Prop :=
  t.ending = .ok (.returned status) ∧ t.session = after

/-- The tool returns what its command does. -/
theorem returns_of_perform {around : Surroundings} {s after : Session} {arguments : List String}
    {i : Invocation} (hread : Invocation.read arguments = .ok i) {status : Nat}
    (h : (perform around i).perform s = (.ok status, after)) :
    Returns (run around s arguments) status after := by
  rw [run, hread, Returns]
  exact ⟨congrArg (Except.map Ending.returned) (congrArg Prod.fst h), congrArg Prod.snd h⟩

/-- **What the commands report is what was run.**

`solve` ends well just if it is asked for a search or more of one of the nine cells, and then it
reports a tie, and the nodes of one search as often as it was to search; else it leaves an error
record and the status `2`.

`bench`, not tracked, is refused for its repetitions before anything is run.  Otherwise it runs so
many groups of phases, which all have the same count of iterations and the same nodes, and reports
them as they are.  A kind of worker that was set to nothing is refused by the first parallel phase,
before it reads the clock. -/
theorem commands_report (around : Surroundings) (s : Session) (arguments : List String)
    (i : Invocation) (hread : Invocation.read arguments = .ok i) (hversion : i.version = false)
    (hinfo : i.info = false) :
    (∀ (request : SolveRequest) (opening iterations : Int), i.command = some (.solve request) →
      request.opening = .value opening → request.iterations = .value iterations →
        ∃ given, Behind arguments "solve" solveGrammar given
          ∧ request.pruning = ⟨!given.has "--no-ab-prune", !given.has "--no-win-lose-prune"⟩
          ∧ if 1 ≤ iterations ∧ 0 ≤ opening ∧ opening ≤ 8 then
              Returns (run around s arguments) 0
                { s with log := s.log ++ solveLog request.pruning opening iterations }
            else
              ∃ text, Returns (run around s arguments) 2
                { s with log := s.log ++ [⟨.error, text⟩] })
      ∧ ∀ (request : BenchRequest) (repetitions : Int), i.command = some (.bench request) →
        request.tracking = false → request.repetitions = .value repetitions →
          ∃ given, Behind arguments "bench" benchGrammar given
            ∧ request.pruning = ⟨!given.has "--no-ab-prune", !given.has "--no-win-lose-prune"⟩
            ∧ let serial : Bool := given.has "--serial-only"
                || (around.environment.platform == some "RVOS"
                  || around.environment.platform == some "ARMOS")
              let count : Int := match given.operand? "iterations" with
                | some n => if 0 < n then n else 1
                | none => 1
              if repetitions ≤ 0 then
                Returns (run around s arguments) 2
                  { s with log := s.log ++ [⟨.error, "--repeat must be > 0"⟩] }
              else if request.executor = .blank ∧ serial = false then
                Returns (run around s arguments) 2
                  { s with log := s.log ++ [⟨.error, "Unknown executor: []"⟩] }
              else
                CanReport around s.files request.out → ∃ (phases : List Phase) (after : Session),
                  Returns (run around s arguments) 0 after
                    ∧ Benched around request repetitions serial count s after phases := by
  have hcommand : ∀ c, i.command = some c → perform around i = match c with
      | .bench r => refusing (bench around r)
      | .solve r => refusing (solve r)
      | .selfCheck => check
      | .openings => openings := by
    intro c hc
    rw [perform, hversion, hinfo, if_neg Bool.false_ne_true, if_neg Bool.false_ne_true, hc]
    cases c <;> rfl
  refine ⟨fun request opening iterations hc hopening hiterations => ?_,
    fun request repetitions hc htracking hrepetitions => ?_⟩
  · obtain ⟨given, hbehind, hrequest⟩ := behind_of_solve hread hc
    refine ⟨given, hbehind, by rw [hrequest]; rfl, ?_⟩
    split_ifs with hgood
    · refine returns_of_perform hread ?_
      rw [hcommand _ hc]
      exact perform_refusing_ok (perform_solve hopening hiterations hgood.1 hgood.2 s)
    · obtain ⟨text, hrefused⟩ := perform_solve_refused hopening hiterations hgood s
      refine ⟨text, returns_of_perform hread ?_⟩
      rw [hcommand _ hc]
      exact hrefused
  · obtain ⟨given, hbehind, hrequest⟩ := behind_of_bench hread hc
    refine ⟨given, hbehind, by rw [hrequest]; rfl, ?_⟩
    intro serial count
    have hserial : serial
        = (request.serialOnly || !parallelSupported around.environment.platform) := by
      rw [parallelSupported_eq, Bool.not_not, hrequest]
      rfl
    have hcount : normalIterations request.iterations = count := by
      rw [normalIterations_eq, hrequest]
      rfl
    split_ifs with hnonpos hblank
    · refine returns_of_perform hread ?_
      rw [hcommand _ hc]
      exact perform_refusing_ok (perform_bench_of_nonpos hrepetitions hnonpos s)
    · rw [hserial, Bool.or_eq_false_iff, Bool.not_eq_false'] at hblank
      refine returns_of_perform hread ?_
      rw [hcommand _ hc]
      exact perform_bench_of_blank hrepetitions (Int.not_le.mp hnonpos) htracking hblank.1
        hblank.2.1 hblank.2.2 s
    · intro hreport
      have hexecutor : serial = false →
          ∃ executor : Executor, request.executor = .value executor.name := by
        intro hparallel
        rw [hrequest] at hblank ⊢
        exact (executor_of_behind hbehind).resolve_left fun h => hblank ⟨h, hparallel⟩
      obtain ⟨phases, after, hperform, hbenched⟩ := exists_benched hrepetitions
        (Int.not_le.mp hnonpos) htracking hserial hexecutor hreport
      rw [hcount] at hbenched
      refine ⟨phases, after, returns_of_perform hread ?_, hbenched⟩
      rw [hcommand _ hc]
      exact hperform

/-- Two searches of the centre, of what remains without the window. -/
def centreTwice : SolveRequest where
  opening := .value 4
  iterations := .value 2
  pruning := ⟨false, true⟩

/-- Two repetitions of three iterations, to be reported to a file. -/
def reportedTwice : BenchRequest where
  iterations := some 3
  repetitions := .value 2
  out := some (.value (.ofString "report"))

theorem canReport_reportedTwice : CanReport atWork workDirectory reportedTwice.out := by
  refine ⟨⟨_, _, repositoryRoot_atWork, currentCommit_atWork⟩, workDirectory, ?_, [],
    ⟨[(["report"], .file []), (["work"], .directory)]⟩, ?_⟩
  · rw [Path.ofString_of_name (by decide)]
    exact FileTree.makeDirectories_of_ensure rfl
  · rw [Path.ofString_of_name (by decide)]
    rfl

/-- Both of them, as they are asked for. -/
theorem commands_report_twice :
    Invocation.read ["solve", "--opening", "4", "--iterations", "2", "--no-ab-prune"]
        = .ok { command := some (.solve centreTwice) }
      ∧ Invocation.read ["bench", "3", "--repeat", "2", "--out", "report"]
        = .ok { command := some (.bench reportedTwice) }
      ∧ CanReport atWork workDirectory reportedTwice.out
      ∧ Returns (run atWork {}
          ["solve", "--opening", "4", "--iterations", "2", "--no-ab-prune"]) 0
        { log := solveLog ⟨false, true⟩ 4 2 }
      ∧ ∃ (phases : List Phase) (after : Session),
        Returns (run atWork { files := workDirectory }
            ["bench", "3", "--repeat", "2", "--out", "report"]) 0 after
          ∧ phases.map Phase.name = ["parallel", "serial", "parallel", "serial"]
          ∧ (∀ p ∈ phases, p.iterations = 3)
          ∧ ∃ d, after.Holds atWork (.ofString "report") d
            ∧ d.at? ["config", "iterations"] = some (.integer 3) := by
  have hsolve : Invocation.read ["solve", "--opening", "4", "--iterations", "2", "--no-ab-prune"]
      = .ok { command := some (.solve centreTwice) } := rfl
  have hbench : Invocation.read ["bench", "3", "--repeat", "2", "--out", "report"]
      = .ok { command := some (.bench reportedTwice) } := rfl
  obtain ⟨-, -, -, hsolved⟩ :=
    (commands_report atWork {} _ _ hsolve rfl rfl).1 centreTwice 4 2 rfl rfl rfl
  obtain ⟨given, ⟨outer, words, houter, hname, hgiven⟩, -, hbenched⟩ :=
    (commands_report atWork { files := workDirectory } _ _ hbench rfl rfl).2 reportedTwice 2 rfl rfl
      rfl
  have houter' : grammar.read ["bench", "3", "--repeat", "2", "--out", "report"]
      = .ok { command := some ("bench", ["3", "--repeat", "2", "--out", "report"]) } := rfl
  cases houter'.symm.trans houter
  cases hname
  have hgiven' : benchGrammar.read ["3", "--repeat", "2", "--out", "report"]
      = .ok { given := [("iterations", .integer 3), ("--repeat", .integer 2),
                ("--out", .text "report")] } := rfl
  cases hgiven'.symm.trans hgiven
  dsimp only at hbenched
  rw [if_neg (by decide), if_neg (by decide)] at hbenched
  obtain ⟨phases, after, hreturns, hdone⟩ := hbenched canReport_reportedTwice
  obtain ⟨d, hholds, hcount, -⟩ := hdone.reported _ rfl
  exact ⟨hsolve, hbench, canReport_reportedTwice, hsolved, phases, after, hreturns, hdone.names,
    fun p hp => (hdone.counted p hp).1, d, hholds, hcount⟩

/-- A kind of worker that is set to nothing: no phase is run, although nothing is wrong with the
number of repetitions. -/
theorem bench_of_blank_executor :
    ∃ request, Invocation.read ["bench", "--executor=--"] = .ok { command := some (.bench request) }
      ∧ request.tracking = false ∧ request.repetitions = .value 1 ∧ request.out = none
      ∧ Returns (run atWork {} ["bench", "--executor=--"]) 2
        { log := [⟨.error, "Unknown executor: []"⟩] } := by
  have hread : Invocation.read ["bench", "--executor=--"]
      = .ok { command := some (.bench { executor := .blank }) } := rfl
  refine ⟨_, hread, rfl, rfl, rfl, returns_of_perform hread ?_⟩
  exact perform_bench_of_blank rfl (by decide) rfl rfl rfl (by decide) {}

end Noughts.Tool
