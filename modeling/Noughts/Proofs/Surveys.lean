import Noughts.Proofs.Benchmarks
import Noughts.Proofs.Sessions

/-!
# Surveys

What a survey reports, next to what it has run.

* The phases of a survey are those of so many benchmarks, one after the other (`phases_made`), and
  running them prints nothing (`exists_of_perform_phases`).
* A block that ends with the status `0` has run them, printed their total behind the intervals of
  their times, and left its document in a file (`exists_of_perform_block`).

The count that is printed and kept is the one that was asked for, and the one that is run is what
`normalIterations` makes of it.  `survey_iterations` says when the two are the same.
-/

set_option autoImplicit false

namespace Noughts

namespace Survey

/-- The benchmark that is run so many times. -/
def Request.config (r : Request) (iterations : Int) (parallel : Bool) : BenchConfig where
  iterations := some iterations
  executor := r.executor
  parallel := parallel

variable {around : Surroundings} {r : Request} {s after : Session}

/-! ## The phases -/

/-- What so many runs of a benchmark have made. -/
structure Made (cfg : BenchConfig) (runs : Nat) (ps : List Phase) : Prop where
  names : ps.map Phase.name
    = (List.replicate runs (if cfg.parallel then ["parallel", "serial"] else ["serial"])).flatten
  phaseOf : ∀ p ∈ ps, PhaseOf cfg p

theorem Made.append {cfg : BenchConfig} {n m : Nat} {ps qs : List Phase} (hp : Made cfg n ps)
    (hq : Made cfg m qs) : Made cfg (n + m) (ps ++ qs) where
  names := by
    rw [List.map_append, hp.names, hq.names, ← List.flatten_append, ← List.replicate_add]
  phaseOf := by
    intro p hmem
    exact (List.mem_append.mp hmem).elim (hp.phaseOf p) (hq.phaseOf p)

/-- Each run makes one group of phases, if its benchmark is not repeated. -/
theorem phases_made {cfg : BenchConfig} (hrepetitions : cfg.repetitions = 1) (runs : Nat) :
    (phases cfg runs).Answers (Made cfg runs) := by
  refine phases_answers_of_append ⟨rfl, by simp⟩ ?_ Made.append runs
  refine Action.benchmark_answers fun s s' ps hrun => ?_
  have hran := Bench.ran_of_runPlan hrun
  refine ⟨hran.names.trans (cfg.map_plan.trans ?_), hran.phaseOf⟩
  rw [hrepetitions]
  rfl

theorem Made.exists_mem {cfg : BenchConfig} {runs : Nat} {ps : List Phase} (h : Made cfg runs ps)
    (hruns : 0 < runs) : ∃ p, p ∈ ps := by
  refine List.exists_mem_of_ne_nil ps fun hnil => ?_
  have hnames := h.names
  rw [hnil, List.map_nil, eq_comm, List.flatten_eq_nil_iff] at hnames
  have hgroup := hnames _ (List.mem_replicate.mpr ⟨Nat.ne_of_gt hruns, rfl⟩)
  split at hgroup <;> cases hgroup

/-- Benchmarks only read the clock and keep a log. -/
theorem exists_of_perform_phases {cfg : BenchConfig} {runs : Nat} {ps : List Phase}
    (h : (phases cfg runs).perform s = (.ok ps, after)) :
    ∃ clock log, after = { s with clock, log } := by
  induction runs generalizing s after ps with
  | zero =>
    cases h
    exact ⟨_, _, rfl⟩
  | succ runs ih =>
    obtain ⟨first, between, hfirst, hrest⟩ := Action.exists_of_perform_bind s h
    obtain ⟨rest, last, hrest, hlast⟩ := Action.exists_of_perform_bind _ hrest
    obtain ⟨clock, log, rfl⟩ := ih hrest
    cases hlast
    rw [Action.perform_benchmark] at hfirst
    split at hfirst
    · cases hfirst
      exact ⟨clock, log, rfl⟩
    · cases hfirst

/-! ## What is printed -/

/-- Intervals are printed behind what is there. -/
theorem exists_of_perform_intervals {times : List (String × List Float)}
    {means : List (String × Float)} (h : (intervals times).perform s = (.ok means, after)) :
    ∃ lines, after = { s with output := s.output ++ lines } := by
  induction times generalizing s after means with
  | nil =>
    cases h
    exact ⟨"", by rw [String.append_empty]⟩
  | cons entry rest ih =>
    obtain ⟨c, _, hc, hprint⟩ := Action.exists_of_perform_bind s h
    obtain ⟨-, rfl⟩ := Action.exists_of_perform_ofExcept hc
    obtain ⟨_, _, hprinted, hrest⟩ := Action.exists_of_perform_bind _ hprint
    cases hprinted
    obtain ⟨others, _, hothers, hlast⟩ := Action.exists_of_perform_bind _ hrest
    obtain ⟨lines, rfl⟩ := ih hothers
    cases hlast
    exact ⟨intervalLine entry.1 c ++ "\n" ++ lines, by simp only [String.append_assoc]⟩

/-- The file that is answered holds the document. -/
theorem holds_of_perform_writeFile {d : Document} {out : Path}
    (h : (writeFile around d).perform s = (.ok out, after)) :
    after.Holds around out d ∧ after.output = s.output := by
  obtain ⟨results, _, hresults, h₁⟩ := Action.exists_of_perform_bind s h
  rw [Action.perform_results] at hresults
  cases (congrArg Prod.snd hresults : s = _)
  obtain ⟨answer, _, hcommit, h₂⟩ := Action.exists_of_perform_bind _ h₁
  obtain ⟨questions, rfl⟩ := Action.exists_questions_of_perform_commit hcommit
  obtain ⟨_, _, hmake, h₃⟩ := Action.exists_of_perform_bind _ h₂
  obtain ⟨made, rfl⟩ := Action.exists_of_perform_makeDirectories hmake
  obtain ⟨_, _, hwrite, h₄⟩ := Action.exists_of_perform_bind _ h₃
  obtain ⟨hholds, files, rfl⟩ := Action.holds_of_perform_writeDocument hwrite
  cases h₄
  exact ⟨hholds, rfl⟩

/-- The times of each kind of phase. -/
def timesOf (ps : List Phase) : List (String × List Float) :=
  Statistics.groups (ps.map fun p => (p.name, p.elapsed))

/-- What a survey has left behind of the phases that it has run. -/
structure Reported (around : Surroundings) (r : Request) (parallel : Bool) (iterations : Int)
    (ps : List Phase) (before : String) (after : Session) (out : Path) : Prop where
  printed : ∃ lines, after.output = before ++ lines
    ++ ("moves:    " ++ toString ((Fields.get? (nodesByName ps) "serial").getD 0)
      ++ " per phase, iterations=" ++ toString iterations) ++ "\n"
    ++ ("Wrote " ++ out.text) ++ "\n"
  holds : ∃ metrics, after.Holds around out
    (document r parallel metrics (timesOf ps) (nodesByName ps))

/-- The results of a block are logged by the tracking service, if it is tracked. -/
theorem exists_of_perform_logged {tracked : Bool} {metrics : List (String × Float)} {out : Path}
    (h : (if tracked then do
        Tracking.logMetrics around metrics
        Tracking.logArtifact around out
        return 0
      else return 0 : Action Nat).perform s = (.ok 0, after)) :
    ∃ trackerCalls, after = { s with trackerCalls } := by
  split at h
  · obtain ⟨_, _, hmetrics, hrest⟩ := Action.exists_of_perform_bind s h
    obtain ⟨_, rfl⟩ := Tracking.exists_of_perform_send hmetrics
    obtain ⟨_, _, hartifact, hlast⟩ := Action.exists_of_perform_bind _ hrest
    obtain ⟨_, rfl⟩ := Tracking.exists_of_perform_send hartifact
    cases hlast
    exact ⟨_, rfl⟩
  · cases h
    exact ⟨_, rfl⟩

/-- **A block that ends well** has run its phases and reported them. -/
theorem exists_of_perform_block {runs : Nat} {parallel tracked : Bool}
    (h : (block around r runs parallel tracked).perform s = (.ok 0, after)) :
    ∃ (iterations : Int) (ps : List Phase) (started between : Session) (out : Path),
      r.iterations = .value iterations
        ∧ (∃ trackerCalls, started = { s with trackerCalls })
        ∧ (phases (r.config iterations parallel) runs).perform started = (.ok ps, between)
        ∧ Reported around r parallel iterations ps s.output after out := by
  rw [block] at h
  obtain ⟨started, hparams, h₁⟩ := Action.exists_of_perform_ite_bind h
  have hstarted : ∃ trackerCalls, started = { s with trackerCalls } := by
    obtain ⟨-, hparams⟩ | ⟨-, rfl⟩ := hparams
    · exact Tracking.exists_of_perform_send hparams
    · exact ⟨_, rfl⟩
  obtain ⟨iterations, _, hiterations, h₂⟩ := Action.exists_of_perform_bind _ h₁
  obtain ⟨hasked, rfl⟩ := Action.exists_of_perform_needed hiterations
  obtain ⟨ps, between, hps, h₃⟩ := Action.exists_of_perform_bind _ h₂
  have hmeasured := phases_answers _ runs _ _ _ hps
  simp only [differing_eq_none hmeasured] at h₃
  obtain ⟨means, _, hmeans, h₄⟩ := Action.exists_of_perform_bind _ h₃
  obtain ⟨lines, rfl⟩ := exists_of_perform_intervals hmeans
  obtain ⟨_, _, hprint, h₅⟩ := Action.exists_of_perform_bind _ h₄
  cases hprint
  obtain ⟨out, written, hwrite, h₆⟩ := Action.exists_of_perform_bind _ h₅
  obtain ⟨hholds, houtput⟩ := holds_of_perform_writeFile hwrite
  obtain ⟨_, _, hprint, h₇⟩ := Action.exists_of_perform_bind _ h₆
  cases hprint
  obtain ⟨_, rfl⟩ := exists_of_perform_logged h₇
  obtain ⟨clock, log, rfl⟩ := exists_of_perform_phases hps
  obtain ⟨trackerCalls, rfl⟩ := hstarted
  refine ⟨iterations, ps, _, _, out, hasked, ⟨trackerCalls, rfl⟩, hps, ⟨lines, ?_⟩,
    ⟨means ++ speedup means, hholds⟩⟩
  show written.output ++ ("Wrote " ++ out.text) ++ "\n" = _
  rw [houtput]
  rfl

/-! ## The whole -/

/-- A survey that ends well has run its block, which has started with the files and the clock of the
survey. -/
theorem exists_of_perform (h : (perform around r).perform s = (.ok 0, after)) :
    ∃ (runs : Nat) (tracked : Bool) (started ended : Session) (lines : String),
      r.runs = .value (runs : Int) ∧ 0 < runs
        ∧ (block around r runs (parallelSupported around.environment.platform) tracked).perform
          started = (.ok 0, ended)
        ∧ started.clock = s.clock ∧ started.output = s.output ++ lines
        ∧ ended.files = after.files ∧ ended.output = after.output := by
  obtain ⟨runs, _, hruns, h₁⟩ := Action.exists_of_perform_bind s h
  obtain ⟨hgiven, rfl⟩ := Action.exists_of_perform_needed hruns
  split at h₁
  · cases h₁
  · next hpos =>
    obtain ⟨n, rfl⟩ := Int.eq_ofNat_of_zero_le (Int.le_of_lt (Int.not_le.mp hpos))
    obtain ⟨announced, hnote, h₂⟩ := Action.exists_of_perform_ite_bind h₁
    have hannounced : announced.clock = s.clock
        ∧ ∃ lines, announced.output = s.output ++ lines := by
      obtain ⟨-, hnote⟩ | ⟨-, rfl⟩ := hnote
      · cases hnote
        exact ⟨rfl, _, String.append_assoc⟩
      · exact ⟨rfl, "", String.append_empty.symm⟩
    obtain ⟨hclock, lines, houtput⟩ := hannounced
    obtain ⟨tracked, _, ended, hblock, ⟨_, _, rfl⟩, _, rfl⟩ := Tracking.exists_of_perform_tracked h₂
    exact ⟨n, tracked, _, ended, lines, hgiven, by omega, hblock, hclock, houtput, rfl, rfl⟩

/-- What stands in the document of a survey. -/
theorem at?_document {iterations : Int} (hasked : r.iterations = .value iterations)
    (parallel : Bool) (metrics : List (String × Float)) (times : List (String × List Float))
    (nodes : List (String × Int)) :
    (document r parallel metrics times nodes).at? ["config", "iterations"]
        = some (.text (toString iterations))
      ∧ (document r parallel metrics times nodes).at? ["nodes", "serial"]
        = (Fields.get? nodes "serial").map Document.integer := by
  refine ⟨by rw [document, hasked]; rfl, ?_⟩
  have hnodes : (Fields.get? (nodes.map fun n => (n.1, Document.integer n.2)) "serial")
      = (Fields.get? nodes "serial").map Document.integer := by
    simp only [Fields.get?, List.find?_map, Option.map_map]
    rfl
  show (Fields.get? (nodes.map fun n => (n.1, Document.integer n.2)) "serial").bind some = _
  rw [hnodes, Option.bind_fun_some]

/-- **What a survey that ends well has done**: so many groups of phases, and a report of them. -/
theorem exists_of_run {arguments : List String} (hread : Request.read arguments = .ok r)
    {asked : Int} (hasked : r.iterations = .value asked)
    (hdone : (run around s arguments).ending = .ok (.returned 0)) :
    let parallel := parallelSupported around.environment.platform
    let cfg := r.config asked parallel
    let after := run around s arguments
    ∃ (runs : Nat) (ps : List Phase) (started between : Session) (lines : String) (out : Path)
        (d : Document),
      r.runs = .value (runs : Int) ∧ 0 < runs
        ∧ (phases cfg runs).perform started = (.ok ps, between) ∧ started.clock = s.clock
        ∧ Made cfg runs ps
        ∧ after.output = s.output ++ lines
          ++ ("moves:    " ++ toString cfg.total ++ " per phase, iterations=" ++ toString asked)
          ++ "\n" ++ ("Wrote " ++ out.text) ++ "\n"
        ∧ after.session.Holds around out d
        ∧ d.at? ["config", "iterations"] = some (.text (toString asked))
        ∧ d.at? ["nodes", "serial"] = some (.integer cfg.total) := by
  intro parallel cfg after
  have hrun : after = .ofAction s written (perform around r) := by
    show run around s arguments = _
    rw [run, hread]
  have hperform : (perform around r).perform s = (.ok 0, after.session) := by
    rw [hrun]
    exact Transcript.perform_eq_of_ending (hrun ▸ hdone)
  have houtput : after.output = after.session.output := by
    rw [hrun]
    rfl
  obtain ⟨runs, tracked, _, ended, before, hruns, hpos, hblock, hclock, hbefore, hfiles, hended⟩ :=
    exists_of_perform hperform
  obtain ⟨iterations, ps, _, between, out, hiterations, ⟨_, rfl⟩, hps, hreported⟩ :=
    exists_of_perform_block hblock
  cases hasked.symm.trans hiterations
  have hserial : Fields.get? (nodesByName ps) "serial" = some cfg.total :=
    get?_nodesByName (phases_answers _ runs _ _ _ hps) hpos cfg.serial_mem_kinds
  obtain ⟨lines, hprinted⟩ := hreported.printed
  obtain ⟨metrics, hholds⟩ := hreported.holds
  obtain ⟨hconfig, hkept⟩ := at?_document hasked parallel metrics (timesOf ps) (nodesByName ps)
  refine ⟨runs, ps, _, between, before ++ lines, out, _, hruns, hpos, hps, hclock,
    phases_made rfl runs _ _ _ hps, ?_, ?_, hconfig, ?_⟩
  · rw [houtput, ← hended, hprinted, hserial, hbefore, Option.getD_some]
    simp only [String.append_assoc]
  · rw [Session.Holds, ← hfiles]
    exact hholds
  · rw [hkept, hserial]
    rfl

/-! ## Surveys that end well -/

theorem exists_perform_intervals {times : List (String × List Float)}
    (h : ∀ t ∈ times, ∃ c, Statistics.confidence t.2 = .ok c) (s : Session) :
    ∃ means lines,
      (intervals times).perform s = (.ok means, { s with output := s.output ++ lines }) := by
  induction times generalizing s with
  | nil => exact ⟨[], "", by rw [String.append_empty]; rfl⟩
  | cons entry rest ih =>
    obtain ⟨⟨c, hc⟩, hrest⟩ := List.forall_mem_cons.mp h
    obtain ⟨others, lines, hothers⟩ :=
      ih hrest { s with output := s.output ++ intervalLine entry.1 c ++ "\n" }
    refine ⟨[(entry.1 ++ "_mean_s", c.mean), (entry.1 ++ "_ci95_half_s", c.half)] ++ others,
      intervalLine entry.1 c ++ "\n" ++ lines, ?_⟩
    rw [intervals, hc, Action.perform_bind_ok s (Action.perform_ofExcept_ok s _ _),
      Action.perform_bind_ok s (Action.perform_print s _), Action.perform_bind_ok _ hothers]
    simp only [Action.perform_pure, String.append_assoc]

/-- The phases of one run when the clock stands still. -/
theorem exists_phases_standing {cfg : BenchConfig} {executor : Executor}
    (hexecutor : cfg.executor = .value executor.name) (hne : cfg.moves ≠ [])
    (hmoves : ∀ move ∈ cfg.moves, 0 ≤ move ∧ move ≤ 8) (s : Session) (hclock : s.clock = []) :
    ∃ (ps : List Phase) (after : Session), (phases cfg 1).perform s = (.ok ps, after)
      ∧ after.files = s.files ∧ ∀ p ∈ ps, p.elapsed = 0.0 - 0.0 := by
  obtain ⟨first, b, hfirst⟩ :=
    Bench.exists_runPlan (exists_work hexecutor hne hmoves) cfg.plan { clock := s.clock }
  have hbenchmark : (Action.benchmark cfg).perform s
      = (.ok first, { s with clock := b.clock, log := s.log ++ b.log }) := by
    rw [Action.perform_benchmark, Bench.run, hfirst]
  refine ⟨first ++ [], _, Action.perform_bind_ok s hbenchmark _, rfl, ?_⟩
  intro p hp
  rw [List.append_nil] at hp
  obtain ⟨j, hj⟩ := List.mem_iff_getElem?.mp hp
  rw [(Bench.ran_of_runPlan hfirst).elapsed j p hj, hclock]
  rfl

/-- A file for a document is found if the commit is known and its directory can be made. -/
theorem exists_perform_writeFile {results root : Path} {commit : Option String}
    (hresults : around.resultsDirectory s.files = .ok results)
    (hroot : around.repositoryRoot s.files = .ok root)
    (hcommit : currentCommit s.files around.workingDirectory root around.commitQuery = .ok commit)
    (hmake : s.files.CanMake around.workingDirectory
      ((results.child (commitName commit)).child "benchmarks.json")) (d : Document) :
    ∃ out after, (writeFile around d).perform s = (.ok out, after) := by
  have hresults' : (Action.results around).perform s = (.ok results, s) := by
    rw [Action.perform_results, hresults]
    rfl
  obtain ⟨files, files', hmake, hwrite, -⟩ := Action.exists_perform_writeDocument
    (s := { s with questions := s.questions ++ [commitQuestion root] }) hmake d
  refine ⟨(results.child (commitName commit)).child "benchmarks.json", { s with
    questions := s.questions ++ [commitQuestion root], files := files' }, ?_⟩
  rw [writeFile, Action.perform_bind_ok s hresults',
    Action.perform_bind_ok s (Action.perform_commit_of_eq hroot hcommit)]
  exact (Action.perform_bind_ok _ hmake _).trans (Action.perform_bind_ok _ hwrite _)

/-- A block that is not tracked ends well if its intervals can be told and its file written. -/
theorem exists_perform_block {iterations : Int} (hasked : r.iterations = .value iterations)
    {parallel : Bool} {runs : Nat} {ps : List Phase} {between printed : Session}
    {means : List (String × Float)}
    (hps : (phases (r.config iterations parallel) runs).perform s = (.ok ps, between))
    (hmeans : (intervals (timesOf ps)).perform between = (.ok means, printed))
    (hwrite : ∀ (s' : Session) (d : Document), s'.files = printed.files →
      ∃ out after, (writeFile around d).perform s' = (.ok out, after)) :
    ∃ after, (block around r runs parallel false).perform s = (.ok 0, after) := by
  obtain ⟨out, after, hout⟩ := hwrite { printed with output := printed.output
    ++ ("moves:    " ++ toString ((Fields.get? (nodesByName ps) PhaseKind.serial.name).getD 0)
      ++ " per phase, iterations=" ++ toString iterations) ++ "\n" }
    (document r parallel (means ++ speedup means) (timesOf ps) (nodesByName ps)) rfl
  refine ⟨{ after with output := after.output ++ ("Wrote " ++ out.text) ++ "\n" }, ?_⟩
  rw [block, if_neg Bool.false_ne_true, hasked,
    Action.perform_bind_ok s (Action.perform_needed_value s _ _)]
  refine (Action.perform_bind_ok s hps _).trans ?_
  simp only [differing_eq_none (phases_answers _ runs _ _ _ hps)]
  refine (Action.perform_bind_ok _ hmeans _).trans ?_
  rw [Action.perform_bind_ok _ (Action.perform_print _ _)]
  refine (Action.perform_bind_ok _ hout _).trans ?_
  rw [Action.perform_bind_ok _ (Action.perform_print _ _)]
  rfl

/-- A survey that is not tracked is its block. -/
theorem perform_untracked {runs : Nat} (hruns : r.runs = .value (runs : Int)) (hpos : 0 < runs)
    (hparallel : parallelSupported around.environment.platform = true)
    (htracking : r.tracking ≠ .value "mlflow") (s : Session) :
    (perform around r).perform s = (block around r runs true false).perform s := by
  rw [perform, hruns, Action.perform_bind_ok s (Action.perform_needed_value s _ _),
    if_neg (by omega), hparallel, beq_false_of_ne htracking]
  rfl

end Survey

/-- **A survey reports the count that it was asked for.**  It ends well with so many groups of
phases, all of them with the same count and the same total: the count times the calls of one search
of each opening.  That total is printed and kept, and so is a count, but that is the one that the
survey was asked for.  The phases have run as often as it says only if it is positive. -/
theorem survey_iterations (around : Surroundings) (s : Session) (arguments : List String)
    (r : Survey.Request) (asked : Int) (hread : Survey.Request.read arguments = .ok r)
    (hasked : r.iterations = .value asked)
    (hdone : (Survey.run around s arguments).ending = .ok (.returned 0)) :
    let ran : Int := if 0 < asked then asked else 1
    let nodes : Int := ran *
      ([0, 1, 4].map fun cell => ((solve {} (openingBoard cell) cell).nodes : Int)).sum
    let parallel := parallelSupported around.environment.platform
    let after := Survey.run around s arguments
    ∃ (runs : Nat) (ps : List Phase) (started between : Session) (lines : String) (out : Path)
        (d : Document),
      r.runs = .value (runs : Int) ∧ 0 < runs
        ∧ (Survey.phases (r.config asked parallel) runs).perform started = (.ok ps, between)
        ∧ started.clock = s.clock
        ∧ ps.map Phase.name
          = (List.replicate runs (if parallel then ["parallel", "serial"] else ["serial"])).flatten
        ∧ (∀ p ∈ ps, p.iterations = ran ∧ p.nodes = nodes)
        ∧ after.output = s.output ++ lines
          ++ ("moves:    " ++ toString nodes ++ " per phase, iterations=" ++ toString asked) ++ "\n"
          ++ ("Wrote " ++ out.text) ++ "\n"
        ∧ after.session.Holds around out d
        ∧ d.at? ["config", "iterations"] = some (.text (toString asked))
        ∧ d.at? ["nodes", "serial"] = some (.integer nodes)
        ∧ ((∀ p ∈ ps, p.iterations = asked) ↔ 1 ≤ asked) := by
  intro ran nodes parallel after
  obtain ⟨runs, ps, started, between, lines, out, d, hruns, hpos, hps, hclock, hmade, hprinted,
    hholds, hconfig, hkept⟩ := Survey.exists_of_run hread hasked hdone
  have hran : normalIterations (some asked) = ran := normalIterations_eq (some asked)
  have hnodes : (r.config asked parallel).total = nodes := by
    rw [BenchConfig.total_of_openingMoves rfl]
    exact congrArg (· * _) hran
  have hcounts : ∀ p ∈ ps, p.iterations = ran ∧ p.nodes = nodes := fun p hp =>
    ⟨(hmade.phaseOf p hp).iterations.trans hran, (hmade.phaseOf p hp).nodes.trans hnodes⟩
  have hagree : (∀ p ∈ ps, p.iterations = asked) ↔ 1 ≤ asked := by
    obtain ⟨p, hp⟩ := hmade.exists_mem hpos
    have hones : (∀ q ∈ ps, q.iterations = asked) ↔ ran = asked :=
      ⟨fun h => (hcounts p hp).1.symm.trans (h p hp), fun h q hq => (hcounts q hq).1.trans h⟩
    rw [hones]
    show (if 0 < asked then asked else 1) = asked ↔ 1 ≤ asked
    split <;> omega
  rw [hnodes] at hprinted hkept
  exact ⟨runs, ps, started, between, lines, out, d, hruns, hpos, hps, hclock, hmade.names, hcounts,
    hprinted, hholds, hconfig, hkept, hagree⟩

theorem resultsDirectory_atWork :
    atWork.resultsDirectory workDirectory = .ok ⟨.here, ["work"]⟩ :=
  congrArg Except.ok (Path.ofString_of_name (by decide))

theorem canMake_atWork : workDirectory.CanMake []
    (((⟨.here, ["work"]⟩ : Path).child "c0ffee").child "benchmarks.json") := by
  rw [Path.child_of_name (by decide), Path.child_of_name (by decide)]
  refine ⟨⟨[(["work", "c0ffee"], .directory), (["work"], .directory)]⟩,
    FileTree.makeDirectories_of_ensure rfl, [],
    ⟨[(["work", "c0ffee", "benchmarks.json"], .file []), (["work", "c0ffee"], .directory),
      (["work"], .directory)]⟩, rfl⟩

theorem exists_perform_writeFile_atWork {s : Session} (hfiles : s.files = workDirectory)
    (d : Document) : ∃ out after, (Survey.writeFile atWork d).perform s = (.ok out, after) := by
  have hresults := resultsDirectory_atWork
  have hroot := repositoryRoot_atWork
  have hcommit := currentCommit_atWork
  have hmake := canMake_atWork
  rw [← hfiles] at hresults hroot hcommit hmake
  exact Survey.exists_perform_writeFile hresults hroot hcommit hmake d

theorem exists_of_isOk {ε α : Type} {result : Except ε α} (h : result.isOk = true) :
    ∃ a, result = .ok a := by
  cases result with
  | ok a => exact ⟨a, rfl⟩
  | error e => cases h

/-- One run of so many iterations, in `atWork`. -/
def singleRun (asked : Int) : Survey.Request where
  runs := .value 1
  iterations := .value asked

/-- Whatever count is asked for, the run comes to its end. -/
theorem perform_singleRun (asked : Int) :
    ((Survey.perform atWork (singleRun asked)).perform { files := workDirectory }).1 = .ok 0 := by
  have hexecutor : ((singleRun asked).config asked true).executor = .value Executor.threads.name :=
    rfl
  obtain ⟨ps, after, hps, hfiles, helapsed⟩ := Survey.exists_phases_standing hexecutor
    (List.cons_ne_nil _ _) openingMoves_onBoard { files := workDirectory } rfl
  have hmeasured := Survey.phases_answers _ _ _ _ _ hps
  have hmade := Survey.phases_made rfl _ _ _ _ hps
  have htimes : ps.map (fun p => (p.name, p.elapsed))
      = [("parallel", 0.0 - 0.0), ("serial", 0.0 - 0.0)] := by
    have hstanding : ps.map (fun p => (p.name, p.elapsed))
        = (ps.map Phase.name).map fun name => (name, 0.0 - 0.0) := by
      rw [List.map_map]
      exact List.map_congr_left fun p hp => congrArg (Prod.mk p.name) (helapsed p hp)
    rw [hstanding, hmade.names]
    rfl
  have hconfidence : ∀ t ∈ Statistics.groups (ps.map fun p => (p.name, p.elapsed)),
      ∃ c, Statistics.confidence t.2 = .ok c := by
    rw [htimes]
    have hone : ∃ c, Statistics.confidence [0.0 - 0.0] = .ok c :=
      exists_of_isOk (by decide)
    have hgroups : Statistics.groups [("parallel", 0.0 - 0.0), ("serial", 0.0 - 0.0)]
        = [("parallel", [0.0 - 0.0]), ("serial", [0.0 - 0.0])] := rfl
    rw [hgroups]
    exact List.forall_mem_cons.mpr ⟨hone, List.forall_mem_singleton.mpr hone⟩
  obtain ⟨means, lines, hmeans⟩ := Survey.exists_perform_intervals hconfidence after
  have hasked : (singleRun asked).iterations = .value asked := rfl
  obtain ⟨last, hblock⟩ := Survey.exists_perform_block hasked hps hmeans fun s' d hs' =>
    exists_perform_writeFile_atWork (hs'.trans hfiles) d
  have htracking : (singleRun asked).tracking ≠ .value "mlflow" := by
    show (Setting.value "none" : Setting String) ≠ .value "mlflow"
    decide
  have hruns : (singleRun asked).runs = .value ((1 : Nat) : Int) := rfl
  rw [Survey.perform_untracked hruns (by decide) (by decide) htracking, hblock]

/-- It is run by every command line that asks for it. -/
theorem ending_singleRun {arguments : List String} {asked : Int}
    (hread : Survey.Request.read arguments = .ok (singleRun asked)) :
    (Survey.run atWork { files := workDirectory } arguments).ending = .ok (.returned 0) := by
  rw [Survey.run, hread]
  show ((Survey.perform atWork (singleRun asked)).perform { files := workDirectory }).1.map
    Ending.returned = .ok (.returned 0)
  rw [perform_singleRun]
  rfl

theorem read_singleRun_two :
    Survey.Request.read ["--runs", "1", "--iterations", "2"] = .ok (singleRun 2) := by
  rfl

theorem read_singleRun_zero :
    Survey.Request.read ["--runs", "1", "--iterations", "0"] = .ok (singleRun 0) := by
  rfl

/-- One run of two iterations, as it is asked for. -/
theorem survey_iterations_two :
    Survey.Request.read ["--runs", "1", "--iterations", "2"] = .ok (singleRun 2)
      ∧ (singleRun 2).iterations = .value 2
      ∧ (Survey.run atWork { files := workDirectory } ["--runs", "1", "--iterations", "2"]).ending
        = .ok (.returned 0)
      ∧ ∃ (ps : List Phase) (started between : Session),
        (Survey.phases ((singleRun 2).config 2 true) 1).perform started = (.ok ps, between)
          ∧ ps.map Phase.name = ["parallel", "serial"] ∧ ∀ p ∈ ps, p.iterations = 2 := by
  have hdone := ending_singleRun read_singleRun_two
  obtain ⟨runs, ps, started, between, -, -, -, hruns, -, hps, -, hnames, -, -, -, -, -, hagree⟩ :=
    survey_iterations atWork { files := workDirectory } _ (singleRun 2) 2 read_singleRun_two rfl
      hdone
  have hone : runs = 1 := (Int.ofNat.inj (Setting.value.inj hruns)).symm
  subst hone
  exact ⟨read_singleRun_two, rfl, hdone, ps, started, between, hps, hnames, hagree.mpr (by decide)⟩

/-- No iteration was asked for.  One is run, and none is reported. -/
theorem survey_reports_zero :
    ∃ (after : Transcript) (ps : List Phase) (started between : Session) (lines : String)
        (nodes : Int) (out : Path) (d : Document),
      after = Survey.run atWork { files := workDirectory } ["--runs", "1", "--iterations", "0"]
        ∧ after.ending = .ok (.returned 0)
        ∧ (Survey.phases ((singleRun 0).config 0 true) 1).perform started = (.ok ps, between)
        ∧ ps.map Phase.name = ["parallel", "serial"] ∧ (∀ p ∈ ps, p.iterations = 1)
        ∧ after.output = lines
          ++ ("moves:    " ++ toString nodes ++ " per phase, iterations=" ++ "0") ++ "\n"
          ++ ("Wrote " ++ out.text) ++ "\n"
        ∧ after.session.Holds atWork out d
        ∧ d.at? ["config", "iterations"] = some (.text "0") := by
  have hdone := ending_singleRun read_singleRun_zero
  obtain ⟨runs, ps, started, between, lines, out, d, hruns, -, hps, -, hmade, hprinted, hholds,
    hconfig, -⟩ := Survey.exists_of_run read_singleRun_zero rfl hdone
  have hone : runs = 1 := (Int.ofNat.inj (Setting.value.inj hruns)).symm
  subst hone
  exact ⟨_, ps, started, between, _, _, out, d, rfl, hdone, hps, hmade.names,
    fun p hp => (hmade.phaseOf p hp).iterations, hprinted, hholds, hconfig⟩

end Noughts
