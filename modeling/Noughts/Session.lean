import Noughts.Benchmark
import Noughts.Checkout
import Noughts.Document
import Noughts.Fields
import Noughts.Statistics.Confidence
import Noughts.Status

/-!
# Sessions

A session is what a program has done so far: what it printed and logged, which files there are
now, how far the clock has run, and what it asked of other programs and of the tracking service.
Nothing is done to the world; everything is written down, in order.

An `Action` is a step of a program.  It changes the session and either has a result or fails, and
what was done before a failure stays done.
-/

set_option autoImplicit false

namespace Noughts

/-- A request to the tracking service. -/
inductive TrackerCall where
  /-- Says where runs are kept. -/
  | setUri (uri : String)
  | startRun (name : String)
  | endRun
  | logParams (params : Fields Document)
  | logMetrics (metrics : Fields Float)
  | logArtifact (path : Path) (folder : Option String)

/-- A program that was run. -/
structure CommandRun where
  arguments : List String
  workingDirectory : Path
  hashSeed : String

/-- What a program has done so far. -/
structure Session where
  files : FileTree := {}
  clock : Clock := []
  /-- What was printed. -/
  output : String := ""
  log : Log := []
  /-- The questions that the version control program was asked. -/
  questions : List (List String) := []
  trackerCalls : List TrackerCall := []
  commands : List CommandRun := []

/-- Why a program is stopped. -/
inductive Failure where
  | phase (e : PhaseError)
  | file (e : FileError)
  | commit (e : CommitError)
  | confidence (e : Statistics.ConfidenceError)
  /-- A setting is blank where a value is needed. -/
  | blank (use : BlankUse)
  /-- There is no tracking service to ask. -/
  | noTracker
  /-- Another program failed. -/
  | command (name : String) (status : ExitStatus)
  /-- A failure of the caller's own. -/
  | raised (text : String)

/-- The wording of a failure. -/
def Failure.message : Failure → String
  | .phase e => e.message
  | .file e => e.message
  | .commit e => e.message
  | .confidence e => e.message
  | .blank use => use.message
  | .noTracker => "No module named 'mlflow'"
  | .command name status => status.complaint name
  | .raised text => text

/-- Is the failure one of the values that were given, and not of their use? -/
def Failure.isInvalidValue : Failure → Bool
  | .phase (.run (.fault _)) => false
  | .phase _ => true
  | .file e => e = .zeroCharacter
  | .commit (.file e) => e = .zeroCharacter
  | .commit (.undecodable _) => true
  | .commit .noReference => false
  | .confidence (.sum .opposed) => true
  | .confidence _ => false
  | .blank _ => false
  | .noTracker => false
  | .command _ _ => false
  | .raised _ => true

/-- A step of a program. -/
abbrev Action := ExceptT Failure (StateM Session)

namespace Action

/-- Runs a step from a session. -/
def perform {α : Type} (a : Action α) (s : Session) : Except Failure α × Session :=
  StateT.run (ExceptT.run a) s

/-- Changes the session. -/
def change (f : Session → Session) : Action Unit := modify f

/-- Ends the program with a failure, or goes on with a result. -/
def ofExcept {ε α : Type} (failure : ε → Failure) (r : Except ε α) : Action α :=
  match r with
  | .ok a => pure a
  | .error e => throw (failure e)

/-- The value of a setting, for a use that cannot do without. -/
def needed {α : Type} (use : BlankUse) (setting : Setting α) : Action α :=
  ofExcept .blank (setting.needed use)

/-- Prints a line. -/
def print (line : String) : Action Unit :=
  change fun s => { s with output := s.output ++ line ++ "\n" }

/-- Logs a record. -/
def report (level : Log.Level) (text : String) : Action Unit :=
  change fun s => { s with log := s.log ++ [⟨level, text⟩] }

/-- Asks the tracking service for something. -/
def track (call : TrackerCall) : Action Unit :=
  change fun s => { s with trackerCalls := s.trackerCalls ++ [call] }

/-- Does `last` when `a` is done, whether it fails or not. -/
def afterwards {α : Type} (a : Action α) (last : Session → Session) : Action α :=
  ExceptT.mk fun s =>
    let (result, after) := a.perform s
    (result, last after)

/-! ### What a step does

`perform` is the view through which actions are compared: each way of making one has its rule. -/

section Perform

variable {α β : Type} (s : Session)

@[simp] theorem perform_pure (a : α) : (pure a : Action α).perform s = (.ok a, s) := rfl

@[simp] theorem perform_throw (e : Failure) :
    (throw e : Action α).perform s = (.error e, s) := rfl

@[simp] theorem perform_get : (get : Action Session).perform s = (.ok s, s) := rfl

@[simp] theorem perform_change (f : Session → Session) :
    (change f).perform s = (.ok (), f s) := rfl

/-- A failure ends a sequence of steps, and a result is handed on. -/
theorem perform_bind (a : Action α) (f : α → Action β) :
    (a >>= f).perform s =
      match a.perform s with
      | (.ok x, after) => (f x).perform after
      | (.error e, after) => (.error e, after) := by
  show (ExceptT.bindCont f (a s).1 : StateM Session (Except Failure β)) (a s).2 = _
  rw [perform, StateT.run, ExceptT.run]
  rcases a s with ⟨_ | _, _⟩ <;> rfl

theorem perform_bind_ok {a : Action α} {x : α} {after : Session}
    (h : a.perform s = (.ok x, after)) (f : α → Action β) :
    (a >>= f).perform s = (f x).perform after := by
  rw [perform_bind, h]

theorem perform_bind_error {a : Action α} {e : Failure} {after : Session}
    (h : a.perform s = (.error e, after)) (f : α → Action β) :
    (a >>= f).perform s = (.error e, after) := by
  rw [perform_bind, h]

/-- A sequence of steps that has a result has come through its first step. -/
theorem exists_of_perform_bind {a : Action α} {f : α → Action β} {y : β} {after : Session}
    (h : (a >>= f).perform s = (.ok y, after)) :
    ∃ (x : α) (between : Session),
      a.perform s = (.ok x, between) ∧ (f x).perform between = (.ok y, after) := by
  rw [perform_bind] at h
  match hperform : a.perform s with
  | (.ok x, between) =>
    rw [hperform] at h
    exact ⟨x, between, rfl, h⟩
  | (.error e, between) =>
    rw [hperform] at h
    cases h

/-- A failure that is caught is dealt with from where the steps before it had got. -/
theorem perform_tryCatch (a : Action α) (f : Failure → Action α) :
    (tryCatch a f : Action α).perform s =
      match a.perform s with
      | (.ok x, after) => (.ok x, after)
      | (.error e, after) => (f e).perform after := by
  show (ExceptT.tryCatch a f : Action α) s = _
  simp only [ExceptT.tryCatch, ExceptT.mk, bind, StateT.bind, perform, StateT.run, ExceptT.run]
  rcases a s with ⟨_ | _, _⟩ <;> rfl

@[simp] theorem perform_ofExcept_ok {ε : Type} (failure : ε → Failure) (a : α) :
    (ofExcept failure (.ok a)).perform s = (.ok a, s) := rfl

@[simp] theorem perform_ofExcept_error {ε : Type} (failure : ε → Failure) (e : ε) :
    (ofExcept failure (.error e) : Action α).perform s = (.error (failure e), s) := rfl

@[simp] theorem perform_needed_value (use : BlankUse) (a : α) :
    (needed use (.value a)).perform s = (.ok a, s) := rfl

@[simp] theorem perform_needed_blank (use : BlankUse) :
    (needed use (.blank : Setting α)).perform s = (.error (.blank use), s) := rfl

@[simp] theorem perform_print (line : String) :
    (print line).perform s = (.ok (), { s with output := s.output ++ line ++ "\n" }) := rfl

@[simp] theorem perform_report (level : Log.Level) (text : String) :
    (report level text).perform s = (.ok (), { s with log := s.log ++ [⟨level, text⟩] }) := rfl

@[simp] theorem perform_track (call : TrackerCall) :
    (track call).perform s = (.ok (), { s with trackerCalls := s.trackerCalls ++ [call] }) := rfl

/-- What is done afterwards does not change how the steps before it ended. -/
@[simp] theorem perform_afterwards (a : Action α) (last : Session → Session) :
    (a.afterwards last).perform s = ((a.perform s).1, last (a.perform s).2) := rfl

end Perform

/-! ### What an action answers -/

section Answers

variable {α β : Type} {P : α → Prop} {Q : β → Prop}

/-- Wherever the action starts, its result is one of these if it has one. -/
def Answers (a : Action α) (P : α → Prop) : Prop :=
  ∀ (s after : Session) (x : α), a.perform s = (.ok x, after) → P x

theorem answers_true (a : Action α) : a.Answers fun _ => True := fun _ _ _ _ => trivial

theorem Answers.pure {x : α} (h : P x) : (pure x : Action α).Answers P := by
  intro s after y hy
  cases hy
  exact h

theorem Answers.bind {a : Action α} {f : α → Action β} (ha : a.Answers P)
    (hf : ∀ x, P x → (f x).Answers Q) : (a >>= f).Answers Q := by
  intro s after y hy
  obtain ⟨x, between, hx, hy⟩ := exists_of_perform_bind s hy
  exact hf x (ha s between x hx) between after y hy

/-- What comes last decides what is answered. -/
theorem Answers.after {a : Action α} {f : α → Action β} (hf : ∀ x, (f x).Answers Q) :
    (a >>= f).Answers Q :=
  (answers_true a).bind fun x _ => hf x

theorem Answers.afterwards {a : Action α} (h : a.Answers P) (last : Session → Session) :
    (a.afterwards last).Answers P := by
  intro s after x hx
  rw [perform_afterwards, Prod.mk.injEq] at hx
  exact h s (a.perform s).2 x (Prod.ext hx.1 rfl)

end Answers

/-! ## Steps that programs share -/

/-- Runs a benchmark on a fresh counter. -/
def benchmark (cfg : BenchConfig) : Action (List Phase) :=
  ExceptT.mk fun s =>
    match Bench.run { clock := s.clock } cfg with
    | (.ok phases, b) => (.ok phases, { s with clock := b.clock, log := s.log ++ b.log })
    | (.error e, b) => (.error (.phase e), { s with clock := b.clock, log := s.log ++ b.log })

theorem perform_benchmark (cfg : BenchConfig) (s : Session) :
    (benchmark cfg).perform s =
      match Bench.run { clock := s.clock } cfg with
      | (.ok phases, b) => (.ok phases, { s with clock := b.clock, log := s.log ++ b.log })
      | (.error e, b) =>
        (.error (.phase e), { s with clock := b.clock, log := s.log ++ b.log }) := rfl

theorem benchmark_answers {cfg : BenchConfig} {P : List Phase → Prop}
    (h : ∀ (s s' : Bench) (phases : List Phase), s.run cfg = (.ok phases, s') → P phases) :
    (benchmark cfg).Answers P := by
  intro s after phases hphases
  rw [perform_benchmark] at hphases
  match hrun : Bench.run { clock := s.clock } cfg with
  | (.ok _, b) =>
    rw [hrun] at hphases
    cases hphases
    exact h _ b _ hrun
  | (.error _, b) =>
    rw [hrun] at hphases
    cases hphases

/-- The commit that is checked out. -/
def commit (around : Surroundings) : Action (Option String) := do
  let s ← get
  let root ← ofExcept .file (around.repositoryRoot s.files)
  change fun s => { s with questions := s.questions ++ [commitQuestion root] }
  ofExcept .commit (currentCommit s.files around.workingDirectory root around.commitQuery)

theorem perform_commit {around : Surroundings} {s : Session} {root : Path}
    (hroot : around.repositoryRoot s.files = .ok root) :
    (commit around).perform s =
      ((currentCommit s.files around.workingDirectory root around.commitQuery).mapError .commit,
        { s with questions := s.questions ++ [commitQuestion root] }) := by
  rw [commit, perform_bind_ok s (perform_get s), hroot,
    perform_bind_ok s (perform_ofExcept_ok s _ _), perform_bind_ok s (perform_change s _)]
  cases currentCommit s.files around.workingDirectory root around.commitQuery <;> rfl

/-- A commit that is told is that of some root. -/
theorem exists_of_perform_commit {around : Surroundings} {s after : Session}
    {answer : Option String} (h : (commit around).perform s = (.ok answer, after)) :
    ∃ root, around.repositoryRoot s.files = .ok root
      ∧ currentCommit s.files around.workingDirectory root around.commitQuery = .ok answer := by
  match hroot : around.repositoryRoot s.files with
  | .error e =>
    rw [commit, perform_bind_ok s (perform_get s), hroot,
      perform_bind_error s (perform_ofExcept_error s _ _)] at h
    cases h
  | .ok root =>
    rw [perform_commit hroot] at h
    refine ⟨root, rfl, ?_⟩
    match hanswer : currentCommit s.files around.workingDirectory root around.commitQuery with
    | .error e =>
      rw [hanswer] at h
      cases h
    | .ok answer' =>
      rw [hanswer] at h
      cases h
      rfl

/-- The directory that results go to. -/
def results (around : Surroundings) : Action Path := do
  ofExcept .file (around.resultsDirectory (← get).files)

theorem perform_results (around : Surroundings) (s : Session) :
    (results around).perform s = ((around.resultsDirectory s.files).mapError .file, s) := by
  rw [results, perform_bind_ok s (perform_get s)]
  cases around.resultsDirectory s.files <;> rfl

/-- Makes a directory and those above it, as far as they are missing. -/
def makeDirectories (around : Surroundings) (p : Path) : Action Unit := do
  let (result, files) := (← get).files.makeDirectories around.workingDirectory p
  change fun s => { s with files }
  ofExcept .file result

theorem perform_makeDirectories (around : Surroundings) (p : Path) (s : Session) :
    (makeDirectories around p).perform s =
      ((s.files.makeDirectories around.workingDirectory p).1.mapError .file,
        { s with files := (s.files.makeDirectories around.workingDirectory p).2 }) := by
  rw [makeDirectories, perform_bind_ok s (perform_get s)]
  dsimp only
  rw [perform_bind_ok s (perform_change s _)]
  cases (s.files.makeDirectories around.workingDirectory p).1 <;> rfl

/-- Writes a text to a file. -/
def write (around : Surroundings) (p : Path) (text : String) : Action Unit := do
  let files ← ofExcept .file ((← get).files.write around.workingDirectory p text.toUTF8.toList)
  change fun s => { s with files }

/-- Writes a document to a file. -/
def writeDocument (around : Surroundings) (p : Path) (d : Document) : Action Unit :=
  write around p (d.render around.number)

theorem perform_writeDocument (around : Surroundings) (p : Path) (d : Document) (s : Session) :
    (writeDocument around p d).perform s =
      match s.files.write around.workingDirectory p (d.render around.number).toUTF8.toList with
      | .ok files => (.ok (), { s with files })
      | .error e => (.error (.file e), s) := by
  rw [writeDocument, write, perform_bind_ok s (perform_get s)]
  cases s.files.write around.workingDirectory p (d.render around.number).toUTF8.toList <;> rfl

end Action

end Noughts
