import Noughts.Proofs.Files
import Noughts.Tracking
import Noughts.Transcript

/-!
# What steps leave behind

A step of a program changes some parts of its session and keeps all others.

* Tracking only asks the tracking service for something (`exists_of_perform_send`), so a block that
  is tracked starts and ends in sessions that differ from those around it in nothing else
  (`exists_of_perform_tracked`).
* A document that was written can be read back from its file (`holds_of_perform_writeDocument`).
  Nothing stands in the way but the path (`exists_perform_writeDocument`).
-/

set_option autoImplicit false

namespace Noughts

/-! ## Steps that have a result -/

namespace Action

variable {α β : Type} {s after : Session}

theorem exists_of_perform_ofExcept {ε : Type} {failure : ε → Failure} {r : Except ε α} {a : α}
    (h : (ofExcept failure r).perform s = (.ok a, after)) : r = .ok a ∧ s = after := by
  cases r with
  | ok a' =>
    cases h
    exact ⟨rfl, rfl⟩
  | error e => cases h

theorem exists_of_perform_needed {use : BlankUse} {setting : Setting α} {a : α}
    (h : (needed use setting).perform s = (.ok a, after)) :
    setting = .value a ∧ s = after := by
  cases setting with
  | value a' =>
    cases h
    exact ⟨rfl, rfl⟩
  | blank => cases h

/-- A step that may be left out. -/
theorem exists_of_perform_ite_bind {c : Prop} [Decidable c] {a : Action Unit}
    {f : Unit → Action β} {y : β}
    (h : (if c then a >>= f else f ()).perform s = (.ok y, after)) :
    ∃ between, (c ∧ a.perform s = (.ok (), between) ∨ ¬c ∧ s = between)
      ∧ (f ()).perform between = (.ok y, after) := by
  split at h
  · next hc =>
    obtain ⟨_, between, ha, h⟩ := exists_of_perform_bind s h
    exact ⟨between, .inl ⟨hc, ha⟩, h⟩
  · next hc => exact ⟨s, .inr ⟨hc, rfl⟩, h⟩

end Action

/-- A program that returns has done its action. -/
theorem Transcript.perform_eq_of_ending {s : Session} {written : Log.Entry → Option String}
    {a : Action Nat} {status : Nat}
    (h : (Transcript.ofAction s written a).ending = .ok (.returned status)) :
    a.perform s = (.ok status, (Transcript.ofAction s written a).session) := by
  have hresult : (a.perform s).1.map Ending.returned = .ok (.returned status) := h
  refine Prod.ext ?_ rfl
  match hstatus : (a.perform s).1 with
  | .ok status' =>
    rw [hstatus] at hresult
    cases hresult
    rfl
  | .error e =>
    rw [hstatus] at hresult
    cases hresult

/-! ## Documents in files -/

/-- What stands in a document under names, each inside the one before. -/
def Document.at? : Document → List String → Option Document
  | d, [] => some d
  | .record fields, name :: rest => (Fields.get? fields name).bind fun d => d.at? rest
  | _, _ :: _ => none

/-- A file holds a document. -/
def Session.Holds (s : Session) (around : Surroundings) (p : Path) (d : Document) : Prop :=
  s.files.read around.workingDirectory p = .ok (d.render around.number).toUTF8.toList

/-- The directories above a path can be made, and then a file can be written there. -/
def FileTree.CanMake (t : FileTree) (workingDirectory : Location) (p : Path) : Prop :=
  ∃ t', t.makeDirectories workingDirectory p.parent = (.ok (), t') ∧ t'.Writable workingDirectory p

namespace Action

variable {around : Surroundings} {s after : Session} {p : Path} {d : Document}

/-- **A document that was written is there.** -/
theorem holds_of_perform_writeDocument
    (h : (writeDocument around p d).perform s = (.ok (), after)) :
    after.Holds around p d ∧ ∃ files, after = { s with files } := by
  rw [perform_writeDocument] at h
  split at h
  · next files hwrite =>
    cases h
    exact ⟨FileTree.read_of_write hwrite, files, rfl⟩
  · cases h

/-- **A document can be written to every file that can be**, whatever it says. -/
theorem exists_perform_writeDocument (h : s.files.CanMake around.workingDirectory p)
    (d : Document) : ∃ files files',
      (makeDirectories around p.parent).perform s = (.ok (), { s with files })
        ∧ (writeDocument around p d).perform { s with files }
          = (.ok (), { s with files := files' })
        ∧ Session.Holds { s with files := files' } around p d := by
  obtain ⟨files, hmake, hwritable⟩ := h
  obtain ⟨files', hwrite⟩ := hwritable.exists_write (d.render around.number).toUTF8.toList
  refine ⟨files, files', ?_, ?_, FileTree.read_of_write hwrite⟩
  · rw [perform_makeDirectories, hmake]
    rfl
  · rw [perform_writeDocument, hwrite]

/-- Making directories changes nothing but files. -/
theorem exists_of_perform_makeDirectories
    (h : (makeDirectories around p).perform s = (.ok (), after)) :
    ∃ files, after = { s with files } := by
  rw [perform_makeDirectories] at h
  exact ⟨_, (congrArg Prod.snd h).symm⟩

theorem perform_commit_of_eq {root : Path} {answer : Option String}
    (hroot : around.repositoryRoot s.files = .ok root)
    (hanswer : currentCommit s.files around.workingDirectory root around.commitQuery = .ok answer) :
    (commit around).perform s
      = (.ok answer, { s with questions := s.questions ++ [commitQuestion root] }) := by
  rw [perform_commit hroot, hanswer]
  rfl

/-- Asking for the commit leaves nothing but the question. -/
theorem exists_questions_of_perform_commit {answer : Option String}
    (h : (commit around).perform s = (.ok answer, after)) :
    ∃ questions, after = { s with questions } := by
  obtain ⟨root, hroot, -⟩ := exists_of_perform_commit h
  rw [perform_commit hroot] at h
  exact ⟨_, (congrArg Prod.snd h).symm⟩

end Action

/-! ## A place to work in -/

/-- A program whose results go into a directory `work`, there into one of the commit. -/
def atWork : Surroundings where
  environment := { repository := some "work", results := some "work" }
  commitQuery := .answered "c0ffee"
  number := fun _ => ""

/-- The files of `atWork`, before it does anything. -/
def workDirectory : FileTree := ⟨[(["work"], .directory)]⟩

theorem repositoryRoot_atWork : atWork.repositoryRoot workDirectory = .ok ⟨.here, ["work"]⟩ :=
  congrArg Except.ok (Path.ofString_of_name (by decide))

theorem currentCommit_atWork :
    currentCommit workDirectory [] ⟨.here, ["work"]⟩ (.answered "c0ffee")
      = .ok (some "c0ffee") := by
  decide

/-! ## Tracking -/

namespace Tracking

variable {around : Surroundings} {s after : Session}

theorem exists_of_perform_send {call : TrackerCall}
    (h : (send around call).perform s = (.ok (), after)) :
    ∃ trackerCalls, after = { s with trackerCalls } := by
  rw [send] at h
  split at h
  · cases h
    exact ⟨_, rfl⟩
  · cases h

theorem exists_of_perform_chooseStore {store : Option (Setting Path)}
    (h : (chooseStore around store).perform s = (.ok (), after)) :
    ∃ trackerCalls, after = { s with trackerCalls } := by
  cases store with
  | none =>
    cases h
    exact ⟨s.trackerCalls, rfl⟩
  | some store =>
    obtain ⟨directory, _, hdirectory, hchosen⟩ := Action.exists_of_perform_bind s h
    obtain ⟨-, rfl⟩ := Action.exists_of_perform_needed hdirectory
    rw [Action.perform_bind_ok s (Action.perform_get s)] at hchosen
    obtain ⟨uri, _, huri, htrack⟩ := Action.exists_of_perform_bind _ hchosen
    obtain ⟨-, rfl⟩ := Action.exists_of_perform_ofExcept huri
    cases htrack
    exact ⟨_, rfl⟩

/-- **A block that is tracked comes to what it would come to by itself**, and tracking adds nothing
but requests and warnings. -/
theorem exists_of_perform_tracked {α : Type} {enabled : Bool} {name : String}
    {store : Option (Setting Path)} {block : Bool → Action α} {x : α}
    (h : (tracked around enabled name store block).perform s = (.ok x, after)) :
    ∃ (isTracked : Bool) (started ended : Session),
      (block isTracked).perform started = (.ok x, ended)
        ∧ (∃ log trackerCalls, started = { s with log, trackerCalls })
        ∧ ∃ trackerCalls, after = { ended with trackerCalls } := by
  rw [tracked] at h
  split at h
  · exact ⟨false, s, after, h, ⟨s.log, s.trackerCalls, rfl⟩, after.trackerCalls, rfl⟩
  · split at h
    · obtain ⟨_, between, hwarned, h⟩ := Action.exists_of_perform_bind s h
      cases hwarned
      exact ⟨false, _, after, h, ⟨_, _, rfl⟩, after.trackerCalls, rfl⟩
    · obtain ⟨_, chosen, hchosen, h⟩ := Action.exists_of_perform_bind s h
      obtain ⟨_, rfl⟩ := exists_of_perform_chooseStore hchosen
      obtain ⟨_, opened, hopened, h⟩ := Action.exists_of_perform_bind _ h
      cases hopened
      rw [Action.perform_afterwards, Prod.mk.injEq] at h
      obtain ⟨hresult, rfl⟩ := h
      exact ⟨true, _, _, Prod.ext hresult rfl, ⟨_, _, rfl⟩, _, rfl⟩

end Tracking

end Noughts
