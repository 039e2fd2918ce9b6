import Noughts.Proofs.RealPaths
import Noughts.Proofs.Sessions

/-!
# Tracked runs

A tracked run is opened, then its block does its steps, then it is closed.  What it is opened and
closed with does not depend on the block, and the block does not see more of it than whether it is
tracked.  So a run comes to what its block comes to in the session that it is started in
(`perform_tracked`), with one request more behind it if the run is tracked.  This holds for a block
that fails as well: it is closed like any other, and its failure is that of the run.

A block of steps makes the requests of those before the first that fails, and ends with its failure
(`perform_runBlock`).  None of these requests opens or closes anything (`filter_brackets_calls`), so
those of the run itself are all there are of that kind.

There is one way in which a run cannot be opened.  The directory that it is to be kept in is resolved
first.  If it has a zero character, or leads through links that lead back to one another, the run
fails before anything has been asked of the service, and its block is not run at all
(`perform_tracked_of_refused`).
-/

set_option autoImplicit false

namespace Noughts

/-- Is the request one of those around a block: does it say where a run is kept, or open or close
it? -/
def TrackerCall.brackets : TrackerCall → Bool
  | .setUri _ | .startRun _ | .endRun => true
  | .logParams _ | .logMetrics _ | .logArtifact _ _ => false

namespace Tracking

variable {α : Type} {around : Surroundings} {enabled : Bool} {directory : Option Path}

/-! ## The steps of a block -/

namespace BlockStep

/-- What a step asks of the service. -/
def call? : BlockStep → Option TrackerCall
  | .params ps => some (.logParams ps)
  | .metrics ms => some (.logMetrics ms)
  | .artifact path folder => some (.logArtifact path folder)
  | .raise _ => none

/-- How a step fails, if it does. -/
def failure? (around : Surroundings) : BlockStep → Option Failure
  | .raise text => some (.raised text)
  | _ => if around.trackerInstalled then none else some .noTracker

theorem brackets_of_call? {step : BlockStep} {call : TrackerCall} (h : step.call? = some call) :
    call.brackets = false := by
  cases step <;> cases h <;> rfl

/-- One step asks for something or fails. -/
theorem perform_run (around : Surroundings) (step : BlockStep) (s : Session) :
    (step.run around).perform s =
      match step.failure? around with
      | some e => (.error e, s)
      | none => (.ok (), { s with trackerCalls := s.trackerCalls ++ step.call?.toList }) := by
  have hsent (call : TrackerCall) : (send around call).perform s =
      match (if around.trackerInstalled then none else some Failure.noTracker) with
      | some e => (.error e, s)
      | none => (.ok (), { s with trackerCalls := s.trackerCalls ++ [call] }) := by
    rw [send]
    cases around.trackerInstalled <;> rfl
  cases step with
  | params ps => exact hsent (.logParams ps)
  | metrics ms => exact hsent (.logMetrics ms)
  | artifact path folder => exact hsent (.logArtifact path folder)
  | raise text => rfl

end BlockStep

/-- What the steps of a block ask of the service before the first that fails. -/
def calls (around : Surroundings) (steps : List BlockStep) : List TrackerCall :=
  (steps.takeWhile fun step => (step.failure? around).isNone).filterMap BlockStep.call?

/-- How the steps of a block end: with the failure of the first that fails. -/
def outcome (around : Surroundings) (steps : List BlockStep) : Except Failure Unit :=
  match steps.findSome? (BlockStep.failure? around) with
  | some e => .error e
  | none => .ok ()

/-- **What a block of steps comes to.** -/
theorem perform_runBlock (around : Surroundings) (steps : List BlockStep) (s : Session) :
    (runBlock around steps).perform s =
      (outcome around steps,
        { s with trackerCalls := s.trackerCalls ++ calls around steps }) := by
  induction steps generalizing s with
  | nil => simp [runBlock, outcome, calls]
  | cons step rest ih =>
    rw [runBlock, Action.perform_bind, step.perform_run, outcome, calls, List.findSome?_cons]
    cases hfailure : step.failure? around with
    | some e => simp [hfailure]
    | none =>
      have hmade : (step :: rest.takeWhile fun step => (step.failure? around).isNone).filterMap
          BlockStep.call? = step.call?.toList ++ calls around rest := by
        rw [List.filterMap_cons, calls]
        cases step.call? <;> rfl
      rw [List.takeWhile_cons_of_pos (by rw [hfailure]; rfl), hmade, ← List.append_assoc]
      exact ih _

theorem filter_brackets_calls (around : Surroundings) (steps : List BlockStep) :
    (calls around steps).filter TrackerCall.brackets = [] := by
  refine List.filter_eq_nil_iff.mpr fun call hcall => ?_
  obtain ⟨step, -, hstep⟩ := List.mem_filterMap.mp hcall
  rw [BlockStep.brackets_of_call? hstep]
  exact Bool.false_ne_true

/-! ## Opening and closing -/

/-- Is the run tracked?  It has to be asked for, and the service has to be there. -/
def isTracked (around : Surroundings) (enabled : Bool) : Bool := enabled && around.trackerInstalled

/-- The run would be tracked, but it cannot be said where it is to be kept. -/
def Refused (around : Surroundings) (t : FileTree) (enabled : Bool) (directory : Option Path)
    (e : FileError) : Prop :=
  isTracked around enabled = true
    ∧ ∃ p ∈ directory, t.resolve around.workingDirectory (p.child "mlruns") = .error e

/-- What a run is opened with.  If it is tracked, that is its start, and before it the place where it
is kept, if a directory is given. -/
inductive Opens (around : Surroundings) (t : FileTree) (enabled : Bool) (name : String) :
    Option Path → List TrackerCall → Prop
  | untracked (directory : Option Path) (h : isTracked around enabled = false) :
      Opens around t enabled name directory []
  | anywhere (h : isTracked around enabled = true) :
      Opens around t enabled name none [.startRun name]
  | under {directory store : Path} (h : isTracked around enabled = true)
      (hstore : t.resolve around.workingDirectory (directory.child "mlruns") = .ok store) :
      Opens around t enabled name (some directory) [.setUri store.uri, .startRun name]

/-- What a run is closed with. -/
def closing (around : Surroundings) (enabled : Bool) : List TrackerCall :=
  if isTracked around enabled then [.endRun] else []

theorem Opens.filter_brackets {t : FileTree} {name : String} {opening : List TrackerCall}
    (h : Opens around t enabled name directory opening) :
    opening.filter TrackerCall.brackets = opening := by
  cases h <;> rfl

/-- A run that is not refused is opened. -/
theorem exists_opens {t : FileTree} (h : ∀ e, ¬Refused around t enabled directory e)
    (name : String) : ∃ opening, Opens around t enabled name directory opening := by
  cases htracked : isTracked around enabled with
  | false => exact ⟨_, .untracked directory htracked⟩
  | true =>
    cases directory with
    | none => exact ⟨_, .anywhere htracked⟩
    | some p =>
      match hstore : t.resolve around.workingDirectory (p.child "mlruns") with
      | .ok store => exact ⟨_, .under htracked hstore⟩
      | .error e => exact absurd ⟨htracked, p, rfl, hstore⟩ (h e)

theorem filter_brackets_closing (around : Surroundings) (enabled : Bool) :
    (closing around enabled).filter TrackerCall.brackets = closing around enabled := by
  rw [closing]
  split <;> rfl

/-- What is logged: that the service is missing, if it was asked for. -/
def warnings (around : Surroundings) (enabled : Bool) : Log :=
  if enabled && !around.trackerInstalled then
    [⟨.warning, "mlflow is not installed; continuing without tracking"⟩]
  else []

/-- The session that a block is started in. -/
def started (around : Surroundings) (enabled : Bool) (opening : List TrackerCall) (s : Session) :
    Session :=
  { s with
    log := s.log ++ warnings around enabled
    trackerCalls := s.trackerCalls ++ opening }

theorem perform_chooseStore_ok {p store : Path} {s : Session}
    (h : s.files.resolve around.workingDirectory (p.child "mlruns") = .ok store) :
    (chooseStore around (some (.value p))).perform s
      = (.ok (), { s with trackerCalls := s.trackerCalls ++ [.setUri store.uri] }) := by
  have huri : storeUri around s.files p = .ok store.uri := by
    rw [storeUri, h]
    rfl
  rw [chooseStore, Action.perform_bind_ok s (Action.perform_needed_value s .directory p),
    Action.perform_bind_ok s (Action.perform_get s), huri,
    Action.perform_bind_ok s (Action.perform_ofExcept_ok s _ _)]
  rfl

theorem perform_chooseStore_error {p : Path} {e : FileError} {s : Session}
    (h : s.files.resolve around.workingDirectory (p.child "mlruns") = .error e) :
    (chooseStore around (some (.value p))).perform s = (.error (.file e), s) := by
  have huri : storeUri around s.files p = .error e := by
    rw [storeUri, h]
    rfl
  rw [chooseStore, Action.perform_bind_ok s (Action.perform_needed_value s .directory p),
    Action.perform_bind_ok s (Action.perform_get s), huri,
    Action.perform_bind_error s (Action.perform_ofExcept_error s Failure.file _)]

/-! ## Whole runs -/

/-- A run that cannot be opened leaves everything as it was. -/
theorem perform_tracked_of_refused {s : Session} {e : FileError}
    (h : Refused around s.files enabled directory e) (name : String) (block : Bool → Action α) :
    (tracked around enabled name (directory.map .value) block).perform s
      = (.error (.file e), s) := by
  obtain ⟨htracked, p, hp, hfails⟩ := h
  obtain ⟨rfl, hinstalled⟩ := (Bool.and_eq_true _ _).mp htracked
  obtain rfl := hp
  rw [tracked, if_neg (by decide), if_neg (by simp [hinstalled]), Option.map_some,
    Action.perform_bind_error s (perform_chooseStore_error hfails)]

/-- A run that is tracked is started once it is settled where it is kept. -/
theorem perform_tracked_of_chosen (h : isTracked around enabled = true) {s : Session}
    {store : Option (Setting Path)} {chosen : List TrackerCall}
    (hchosen : (chooseStore around store).perform s
      = (.ok (), { s with trackerCalls := s.trackerCalls ++ chosen }))
    (name : String) (block : Bool → Action α) :
    (tracked around enabled name store block).perform s =
      let ended := (block true).perform (started around enabled (chosen ++ [.startRun name]) s)
      (ended.1, { ended.2 with trackerCalls := ended.2.trackerCalls ++ [.endRun] }) := by
  obtain ⟨rfl, hinstalled⟩ := (Bool.and_eq_true _ _).mp h
  rw [tracked, if_neg (by decide), if_neg (by simp [hinstalled]),
    Action.perform_bind_ok s hchosen, Action.perform_bind_ok _ (Action.perform_track _ _),
    Action.perform_afterwards]
  simp [started, warnings, hinstalled]

theorem perform_tracked_of_untracked (h : isTracked around enabled = false) (name : String)
    (store : Option (Setting Path)) (block : Bool → Action α) (s : Session) :
    (tracked around enabled name store block).perform s
      = (block false).perform (started around enabled [] s) := by
  cases enabled with
  | false => simp [tracked, started, warnings]
  | true =>
    have hinstalled : around.trackerInstalled = false := h
    rw [tracked, if_neg (by decide), if_pos (by simp [hinstalled]),
      Action.perform_bind_ok s (Action.perform_report s _ _)]
    simp [started, warnings, hinstalled]

/-- **A run comes to what its block comes to**, and is closed behind it. -/
theorem perform_tracked {s : Session} {name : String} {opening : List TrackerCall}
    (h : Opens around s.files enabled name directory opening) (block : Bool → Action α) :
    (tracked around enabled name (directory.map .value) block).perform s =
      let ended := (block (isTracked around enabled)).perform (started around enabled opening s)
      (ended.1, { ended.2 with
        trackerCalls := ended.2.trackerCalls ++ closing around enabled }) := by
  cases h with
  | untracked directory htracked =>
    rw [perform_tracked_of_untracked htracked, htracked, closing, htracked]
    simp
  | anywhere htracked =>
    have hchosen : (chooseStore around none).perform s
        = (.ok (), { s with trackerCalls := s.trackerCalls ++ [] }) := by
      rw [List.append_nil]
      rfl
    rw [Option.map_none, perform_tracked_of_chosen htracked hchosen, htracked, closing,
      if_pos htracked]
    rfl
  | under htracked hresolved =>
    rw [Option.map_some,
      perform_tracked_of_chosen htracked (perform_chooseStore_ok hresolved), htracked, closing,
      if_pos htracked]
    rfl

/-- **Every run is opened and closed once, around its block.**  The block is told whether the run is
tracked, and it decides how the run ends.  Where the block is a list of steps, what is asked of the
service is what the run is opened with, what the steps ask for before the first that fails, and what
the run is closed with; and nothing else of the kind that brackets a block is asked.

If a run that is tracked is to be kept under a directory, it has to be possible to resolve that.
Otherwise the run fails, and neither the service nor the block has any part in it. -/
theorem tracked_brackets (around : Surroundings) (enabled : Bool) (name : String)
    (directory : Option Path) (s : Session) :
    (∀ e, Refused around s.files enabled directory e →
        (e = .zeroCharacter ∨ ∃ p, e = .linkLoop p)
        ∧ ∀ (α : Type) (block : Bool → Action α),
          (tracked around enabled name (directory.map .value) block).perform s
            = (.error (.file e), s))
      ∧ ((∀ e, ¬Refused around s.files enabled directory e) →
          ∃ opening, Opens around s.files enabled name directory opening
            ∧ (∀ (α : Type) (block : Bool → Action α),
                (tracked around enabled name (directory.map .value) block).perform s =
                  let ended := (block (isTracked around enabled)).perform
                    (started around enabled opening s)
                  (ended.1, { ended.2 with
                    trackerCalls := ended.2.trackerCalls ++ closing around enabled }))
            ∧ ∀ steps : Bool → List BlockStep,
                let asked := opening ++ calls around (steps (isTracked around enabled))
                  ++ closing around enabled
                (tracked around enabled name (directory.map .value)
                    fun told => runBlock around (steps told)).perform s
                  = (outcome around (steps (isTracked around enabled)),
                      { s with
                        log := s.log ++ warnings around enabled
                        trackerCalls := s.trackerCalls ++ asked })
                  ∧ asked.filter TrackerCall.brackets = opening ++ closing around enabled) := by
  refine ⟨fun e h => ⟨?_, fun α block => perform_tracked_of_refused h name block⟩, fun h => ?_⟩
  · obtain ⟨-, p, -, hfails⟩ := h
    exact FileTree.resolve_error_cases hfails
  · obtain ⟨opening, hopens⟩ := exists_opens h name
    refine ⟨opening, hopens, fun α block => perform_tracked hopens block, fun steps => ⟨?_, ?_⟩⟩
    · rw [perform_tracked hopens]
      simp only [perform_runBlock, started, List.append_assoc]
    · rw [List.filter_append, List.filter_append, filter_brackets_calls, List.append_nil,
        hopens.filter_brackets, filter_brackets_closing]

/-- A program that has a tracking service, and works at the root. -/
def serviced : Surroundings where
  trackerInstalled := true
  number := fun _ => ""

/-- A link to a directory, and one to itself. -/
def linked : FileTree :=
  ⟨[(["store"], .directory), (["runs"], .link ⟨.here, ["store"]⟩),
    (["loop"], .link ⟨.here, ["loop"]⟩)]⟩

theorem resolve_linked :
    linked.resolve [] ((⟨.here, ["runs"]⟩ : Path).child "mlruns")
        = .ok ⟨.root, ["store", "mlruns"]⟩
      ∧ linked.resolve [] ((⟨.here, ["loop"]⟩ : Path).child "mlruns")
        = .error (.linkLoop ⟨.root, ["loop", "mlruns"]⟩) := by
  rw [Path.child_of_name (by decide), Path.child_of_name (by decide)]
  decide +kernel

theorem resolve_zeroCharacter :
    ({} : FileTree).resolve [] ((⟨.here, ["a\x00b"]⟩ : Path).child "mlruns")
      = .error .zeroCharacter := by
  rw [Path.child_of_name (by decide)]
  decide +kernel

theorem refused_linked :
    Refused serviced linked true (some ⟨.here, ["loop"]⟩)
      (.linkLoop ⟨.root, ["loop", "mlruns"]⟩) :=
  ⟨rfl, _, rfl, resolve_linked.2⟩

theorem not_refused_linked (e : FileError) :
    ¬Refused serviced linked true (some ⟨.here, ["runs"]⟩) e := by
  rintro ⟨-, p, hp, hfails⟩
  obtain rfl := Option.some.inj hp
  cases resolve_linked.1.symm.trans hfails

theorem opens_linked {opening : List TrackerCall}
    (h : Opens serviced linked true "bench" (some ⟨.here, ["runs"]⟩) opening) :
    opening = [.setUri "file:///store/mlruns", .startRun "bench"] := by
  have huri : (⟨.root, ["store", "mlruns"]⟩ : Path).uri = "file:///store/mlruns" := by
    decide +kernel
  cases h with
  | untracked _ h => cases h
  | under _ hstore =>
    cases resolve_linked.1.symm.trans hstore
    rw [huri]

theorem tracked_brackets_raised :
    Refused serviced linked true (some ⟨.here, ["loop"]⟩) (.linkLoop ⟨.root, ["loop", "mlruns"]⟩)
      ∧ (tracked serviced true "bench" (some (.value ⟨.here, ["loop"]⟩))
          fun _ => runBlock serviced [.raise "stop"]).perform { files := linked }
        = (.error (.file (.linkLoop ⟨.root, ["loop", "mlruns"]⟩)), { files := linked })
      ∧ (∀ e, ¬Refused serviced linked true (some ⟨.here, ["runs"]⟩) e)
      ∧ (tracked serviced true "bench" (some (.value ⟨.here, ["runs"]⟩))
          fun _ => runBlock serviced [.params [], .raise "stop", .metrics []]).perform
            { files := linked }
        = (.error (.raised "stop"), {
            files := linked
            trackerCalls :=
              [.setUri "file:///store/mlruns", .startRun "bench", .logParams [], .endRun] }) := by
  obtain ⟨hrefused, -⟩ :=
    tracked_brackets serviced true "bench" (some ⟨.here, ["loop"]⟩) { files := linked }
  obtain ⟨-, hopened⟩ :=
    tracked_brackets serviced true "bench" (some ⟨.here, ["runs"]⟩) { files := linked }
  obtain ⟨opening, hopens, -, hsteps⟩ := hopened not_refused_linked
  obtain ⟨hrun, -⟩ := hsteps fun _ => [.params [], .raise "stop", .metrics []]
  obtain rfl := opens_linked hopens
  exact ⟨refused_linked, (hrefused _ refused_linked).2 _ _, not_refused_linked, hrun⟩

/-- **A run that fails before it is opened**: its block would not fail, but the directory that it is
to be kept in has a zero character. -/
theorem tracked_zeroCharacter :
    isTracked serviced true = true
      ∧ (runBlock serviced []).perform {} = (.ok (), {})
      ∧ (tracked serviced true "bench" (some (.value ⟨.here, ["a\x00b"]⟩))
          fun _ => runBlock serviced []).perform {}
        = (.error (.file .zeroCharacter), {}) :=
  ⟨rfl, rfl, perform_tracked_of_refused ⟨rfl, _, rfl, resolve_zeroCharacter⟩ "bench" _⟩

end Tracking

end Noughts
