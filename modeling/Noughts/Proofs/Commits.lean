import Noughts.Proofs.Files
import Noughts.Session

/-!
# Commits

Which commit is checked out, when the version control program does not answer.  It is then read
from the files of the checkout, which can hold anything: `HeadTells` are the heads that tell whether
there is a commit, and which, and `HeadFails` are those that cannot be read to their end.

* `currentCommit_unanswered`: a head either tells something or fails, by these rules and no others.
  Heads that fail are text that announces a reference without naming one, or that names a path too
  long, a directory or what may not be looked up or read, and bytes that are not text, in the head
  or behind the name.
* `commit_trimmed`: whoever tells the commit, there are no blanks around it.  It is empty in one
  case only, that of a head which names a file with nothing in it.
-/

set_option autoImplicit false

namespace Noughts

/-! ## Heads -/

/-- The file of a checkout that tells what is checked out. -/
def headFile (root : Path) : Path := (root.child ".git").child "HEAD"

theorem headFile_eq (root : Path) :
    headFile root = ⟨root.anchor, root.names ++ [".git"] ++ ["HEAD"]⟩ := by
  rw [headFile, Path.child_of_name (by decide), Path.child_of_name (by decide)]

/-- The text of a head announces a reference. -/
def Announces (text : String) : Prop := referenceMark.isPrefixOf text.toList = true

/-- The text of a head names a file of the checkout. -/
def HeadNames (root : Path) (text : String) (file : Path) : Prop :=
  Announces text ∧ ∃ name, (Text.words text)[1]? = some name ∧ file = (root.child ".git").child name

section Parsing

variable {root : Path} {text : String}

/-- A head is the commit itself, or names a file, or announces one without naming it. -/
theorem head_cases (root : Path) (text : String) :
    ¬Announces text ∨ (∃ file, HeadNames root text file)
      ∨ (Announces text ∧ (Text.words text).length < 2) := by
  by_cases h : Announces text
  · match hwords : Text.words text with
    | [] => exact .inr (.inr ⟨h, by simp⟩)
    | [_] => exact .inr (.inr ⟨h, by simp⟩)
    | _ :: name :: _ => exact .inr (.inl ⟨_, h, name, by rw [hwords]; rfl, rfl⟩)
  · exact .inl h

theorem parse_of_not_announces (h : ¬Announces text) : Head.parse root text = .ok (.commit text) :=
  if_neg h

theorem parse_of_announces (h : Announces text) :
    Head.parse root text
      = match Text.words text with
        | _ :: name :: _ => .ok (.reference ((root.child ".git").child name))
        | _ => .error .noReference :=
  if_pos h

theorem HeadNames.parse_eq {file : Path} (h : HeadNames root text file) :
    Head.parse root text = .ok (.reference file) := by
  obtain ⟨hannounces, name, hname, rfl⟩ := h
  rw [parse_of_announces hannounces]
  match Text.words text, hname with
  | _ :: _ :: _, hname =>
    cases hname
    rfl

theorem parse_of_nameless (h : Announces text) (hwords : (Text.words text).length < 2) :
    Head.parse root text = .error .noReference := by
  rw [parse_of_announces h]
  match Text.words text, hwords with
  | [], _ => rfl
  | [_], _ => rfl

end Parsing

section Rules

variable (t : FileTree) (workingDirectory : Location) (root : Path)

/-- What a head tells, that can be read: the commit, or that there is none. -/
inductive HeadTells : Option String → Prop
  /-- There is no head, or it is no file or may not be read. -/
  | nothing {problem : FileProblem} {path : Path}
      (hread : t.read workingDirectory (headFile root) = .error (.problem problem path)) :
      HeadTells none
  /-- The head is the commit itself, if it is not blank. -/
  | commit {text : String}
      (hread : t.readTrimmed workingDirectory (headFile root) = .ok text)
      (hcommit : ¬Announces text) :
      HeadTells (nonEmpty text)
  /-- The head names a file that is not there. -/
  | dangling {text : String} {file : Path}
      (hread : t.readTrimmed workingDirectory (headFile root) = .ok text)
      (hnames : HeadNames root text file)
      (habsent : t.exists? workingDirectory file = .ok false) :
      HeadTells none
  /-- The head names a file, and that holds the commit. -/
  | reference {text commit : String} {file : Path}
      (hread : t.readTrimmed workingDirectory (headFile root) = .ok text)
      (hnames : HeadNames root text file)
      (hcommit : t.readTrimmed workingDirectory file = .ok commit) :
      HeadTells (some commit)

/-- How a head fails that cannot be read to its end. -/
inductive HeadFails : CommitError → Prop
  /-- There can be no such file. -/
  | zeroCharacter
      (hread : t.read workingDirectory (headFile root) = .error .zeroCharacter) :
      HeadFails (.file .zeroCharacter)
  /-- The head is not text. -/
  | undecodableHead {e : Text.DecodeError}
      (hread : t.readTrimmed workingDirectory (headFile root) = .error (.undecodable e)) :
      HeadFails (.undecodable e)
  /-- The head announces a reference and names none. -/
  | noReference {text : String}
      (hread : t.readTrimmed workingDirectory (headFile root) = .ok text)
      (hannounces : Announces text) (hwords : (Text.words text).length < 2) :
      HeadFails .noReference
  /-- The head names a path that no file could have. -/
  | nameTooLong {text : String} {file : Path}
      (hread : t.readTrimmed workingDirectory (headFile root) = .ok text)
      (hnames : HeadNames root text file)
      (hlong : t.exists? workingDirectory file = .error (.problem .nameTooLong file)) :
      HeadFails (.file (.problem .nameTooLong file))
  /-- The head names a path through a directory that may not be searched. -/
  | searchDenied {text : String} {file : Path}
      (hread : t.readTrimmed workingDirectory (headFile root) = .ok text)
      (hnames : HeadNames root text file)
      (hdenied : t.exists? workingDirectory file = .error (.problem .denied file)) :
      HeadFails (.file (.problem .denied file))
  /-- The head names a file that may not be read. -/
  | readDenied {text : String} {file : Path}
      (hread : t.readTrimmed workingDirectory (headFile root) = .ok text)
      (hnames : HeadNames root text file)
      (hthere : t.exists? workingDirectory file = .ok true)
      (hdenied : t.read workingDirectory file = .error (.problem .denied file)) :
      HeadFails (.file (.problem .denied file))
  /-- The head names a directory. -/
  | directory {text : String} {file : Path}
      (hread : t.readTrimmed workingDirectory (headFile root) = .ok text)
      (hnames : HeadNames root text file)
      (hthere : t.exists? workingDirectory file = .ok true)
      (hdirectory : t.read workingDirectory file = .error (.problem .isDirectory file)) :
      HeadFails (.file (.problem .isDirectory file))
  /-- The head names a file that is not text. -/
  | undecodableReference {text : String} {file : Path} {e : Text.DecodeError}
      (hread : t.readTrimmed workingDirectory (headFile root) = .ok text)
      (hnames : HeadNames root text file)
      (hcommit : t.readTrimmed workingDirectory file = .error (.undecodable e)) :
      HeadFails (.undecodable e)

end Rules

section Reading

variable {t : FileTree} {workingDirectory : Location} {root : Path}

theorem FileTree.readTrimmed_of_read_error {p : Path} {e : FileError}
    (h : t.read workingDirectory p = .error e) :
    t.readTrimmed workingDirectory p = .error (.file e) := by
  rw [readTrimmed, h]

/-- A file that is not read as text cannot be read at all, or its bytes are not text. -/
theorem FileTree.readTrimmed_error_cases {p : Path} {e : CommitError}
    (h : t.readTrimmed workingDirectory p = .error e) :
    (∃ e', e = .file e' ∧ t.read workingDirectory p = .error e')
      ∨ ∃ bytes e', e = .undecodable e' ∧ t.read workingDirectory p = .ok bytes := by
  rw [readTrimmed] at h
  split at h
  · next e' hread =>
    cases h
    exact .inl ⟨e', rfl, hread⟩
  · next bytes hread =>
    split at h
    · next e' hdecode =>
      cases h
      exact .inr ⟨bytes, e', rfl, hread⟩
    · cases h

/-- Text that is read has a file to be read from. -/
theorem FileTree.exists_read {p : Path} {text : String}
    (h : t.readTrimmed workingDirectory p = .ok text) :
    ∃ bytes, t.read workingDirectory p = .ok bytes := by
  rw [readTrimmed] at h
  split at h
  · cases h
  · next bytes hread => exact ⟨bytes, hread⟩

/-- What comes of a head that is text. -/
theorem commitFromFiles_of_text {text : String}
    (hread : t.readTrimmed workingDirectory (headFile root) = .ok text) :
    commitFromFiles t workingDirectory root
      = match Head.parse root text with
        | .error e => .error e
        | .ok (.commit text) => .ok (nonEmpty text)
        | .ok (.reference file) =>
          match t.exists? workingDirectory file with
          | .error e => .error (.file e)
          | .ok false => .ok none
          | .ok true => (t.readTrimmed workingDirectory file).map some := by
  rw [headFile] at hread
  rw [commitFromFiles]
  generalize t.readTrimmed workingDirectory _ = read at hread ⊢
  cases hread
  rfl

/-- What comes of a head that names a file. -/
theorem commitFromFiles_of_names {text : String} {file : Path}
    (hread : t.readTrimmed workingDirectory (headFile root) = .ok text)
    (hnames : HeadNames root text file) :
    commitFromFiles t workingDirectory root
      = match t.exists? workingDirectory file with
        | .error e => .error (.file e)
        | .ok false => .ok none
        | .ok true => (t.readTrimmed workingDirectory file).map some := by
  rw [commitFromFiles_of_text hread, hnames.parse_eq]

/-- What a head tells is the commit. -/
theorem HeadTells.commitFromFiles_eq {answer : Option String}
    (h : HeadTells t workingDirectory root answer) :
    commitFromFiles t workingDirectory root = .ok answer := by
  cases h with
  | nothing hread =>
    rw [headFile] at hread
    rw [commitFromFiles, FileTree.readTrimmed_of_read_error hread]
  | commit hread hcommit =>
    rw [commitFromFiles_of_text hread, parse_of_not_announces hcommit]
  | dangling hread hnames habsent =>
    rw [commitFromFiles_of_names hread hnames, habsent]
  | reference hread hnames hcommit =>
    obtain ⟨_, hbytes⟩ := FileTree.exists_read hcommit
    rw [commitFromFiles_of_names hread hnames, FileTree.exists?_of_read hbytes, hcommit]
    rfl

/-- A head that fails leaves the commit untold. -/
theorem HeadFails.commitFromFiles_eq {e : CommitError} (h : HeadFails t workingDirectory root e) :
    commitFromFiles t workingDirectory root = .error e := by
  cases h with
  | zeroCharacter hread =>
    rw [headFile] at hread
    rw [commitFromFiles, FileTree.readTrimmed_of_read_error hread]
  | undecodableHead hread =>
    rw [headFile] at hread
    rw [commitFromFiles, hread]
  | noReference hread hannounces hwords =>
    rw [commitFromFiles_of_text hread, parse_of_nameless hannounces hwords]
  | nameTooLong hread hnames hlong =>
    rw [commitFromFiles_of_names hread hnames, hlong]
  | searchDenied hread hnames hdenied =>
    rw [commitFromFiles_of_names hread hnames, hdenied]
  | readDenied hread hnames hthere hdenied =>
    rw [commitFromFiles_of_names hread hnames, hthere, FileTree.readTrimmed_of_read_error hdenied]
    rfl
  | directory hread hnames hthere hdirectory =>
    rw [commitFromFiles_of_names hread hnames, hthere,
      FileTree.readTrimmed_of_read_error hdirectory]
    rfl
  | undecodableReference hread hnames hcommit =>
    obtain ⟨_, he, -⟩ | ⟨_, _, _, hbytes⟩ := FileTree.readTrimmed_error_cases hcommit
    · cases he
    · rw [commitFromFiles_of_names hread hnames, FileTree.exists?_of_read hbytes, hcommit]
      rfl

/-- A head whose text names a file tells something or fails, as that file does. -/
theorem HeadNames.tells_or_fails {text : String} {file : Path}
    (hnames : HeadNames root text file)
    (hread : t.readTrimmed workingDirectory (headFile root) = .ok text) :
    (∃ answer, HeadTells t workingDirectory root answer)
      ∨ ∃ e, HeadFails t workingDirectory root e := by
  match hexists : t.exists? workingDirectory file with
  | .error e =>
    obtain ⟨problem, hbarred, rfl⟩ := FileTree.exists?_eq_error_iff.mp hexists
    obtain rfl | rfl := hbarred.problem_cases
    · exact .inr ⟨_, .searchDenied hread hnames hexists⟩
    · exact .inr ⟨_, .nameTooLong hread hnames hexists⟩
  | .ok false => exact .inl ⟨_, .dangling hread hnames hexists⟩
  | .ok true =>
    match hcommit : t.readTrimmed workingDirectory file with
    | .ok commit => exact .inl ⟨_, .reference hread hnames hcommit⟩
    | .error e =>
      obtain ⟨e', rfl, he'⟩ | ⟨_, e', rfl, -⟩ := FileTree.readTrimmed_error_cases hcommit
      · obtain rfl | rfl := FileTree.eq_of_read_error hexists he'
        · exact .inr ⟨_, .directory hread hnames hexists he'⟩
        · exact .inr ⟨_, .readDenied hread hnames hexists he'⟩
      · exact .inr ⟨_, .undecodableReference hread hnames hcommit⟩

/-- **Every head tells something or fails**, whatever the files are. -/
theorem head_tells_or_fails (t : FileTree) (workingDirectory : Location) (root : Path) :
    (∃ answer, HeadTells t workingDirectory root answer)
      ∨ ∃ e, HeadFails t workingDirectory root e := by
  match hread : t.readTrimmed workingDirectory (headFile root) with
  | .error e =>
    obtain ⟨e', rfl, he'⟩ | ⟨_, e', rfl, -⟩ := FileTree.readTrimmed_error_cases hread
    · obtain rfl | ⟨problem, rfl⟩ := FileTree.read_error_cases he'
      · exact .inr ⟨_, .zeroCharacter he'⟩
      · exact .inl ⟨_, .nothing he'⟩
    · exact .inr ⟨_, .undecodableHead hread⟩
  | .ok text =>
    obtain hcommit | ⟨file, hnames⟩ | ⟨hannounces, hwords⟩ := head_cases root text
    · exact .inl ⟨_, .commit hread hcommit⟩
    · exact hnames.tells_or_fails hread
    · exact .inr ⟨_, .noReference hread hannounces hwords⟩

theorem currentCommit_eq_files {query : CommitQuery} (h : ∀ output, query ≠ .answered output) :
    currentCommit t workingDirectory root query = commitFromFiles t workingDirectory root := by
  cases query with
  | answered output => exact absurd rfl (h output)
  | unavailable => rfl
  | failed => rfl
  | timedOut => rfl

theorem tells_of_commitFromFiles {answer : Option String}
    (h : commitFromFiles t workingDirectory root = .ok answer) :
    HeadTells t workingDirectory root answer := by
  obtain ⟨answer', htells⟩ | ⟨e, hfails⟩ := head_tells_or_fails t workingDirectory root
  · cases h.symm.trans htells.commitFromFiles_eq
    exact htells
  · cases h.symm.trans hfails.commitFromFiles_eq

theorem fails_of_commitFromFiles {e : CommitError}
    (h : commitFromFiles t workingDirectory root = .error e) :
    HeadFails t workingDirectory root e := by
  obtain ⟨answer, htells⟩ | ⟨e', hfails⟩ := head_tells_or_fails t workingDirectory root
  · cases h.symm.trans htells.commitFromFiles_eq
  · cases h.symm.trans hfails.commitFromFiles_eq
    exact hfails

end Reading

/-! ## No answer from the version control program -/

/-- **Heads are read by these rules and no others.**  Without an answer from the version control
program, the commit is what the head tells, and it fails as the head does.  So there is an answer
for every head but those that fail. -/
theorem currentCommit_unanswered (t : FileTree) (workingDirectory : Location) (root : Path)
    (query : CommitQuery) (hquery : ∀ output, query ≠ .answered output) :
    (∀ answer, currentCommit t workingDirectory root query = .ok answer
        ↔ HeadTells t workingDirectory root answer)
      ∧ (∀ e, currentCommit t workingDirectory root query = .error e
        ↔ HeadFails t workingDirectory root e)
      ∧ ((∃ answer, currentCommit t workingDirectory root query = .ok answer)
        ↔ ∀ e, ¬HeadFails t workingDirectory root e) := by
  rw [currentCommit_eq_files hquery]
  refine ⟨fun answer => ⟨tells_of_commitFromFiles, HeadTells.commitFromFiles_eq⟩,
    fun e => ⟨fails_of_commitFromFiles, HeadFails.commitFromFiles_eq⟩, ?_, fun hnone => ?_⟩
  · rintro ⟨answer, hanswer⟩ e hfails
    cases hanswer.symm.trans hfails.commitFromFiles_eq
  · obtain ⟨answer, htells⟩ | ⟨e, hfails⟩ := head_tells_or_fails t workingDirectory root
    · exact ⟨answer, htells.commitFromFiles_eq⟩
    · exact absurd hfails (hnone e)

/-- The bytes of a text without letters that take more than one. -/
def ascii (text : String) : List UInt8 := text.toList.map fun c => UInt8.ofNat c.toNat

/-- A checkout in the directory `work`, with the given files under `.git`. -/
def workingCheckout (files : List (List String × FileNode)) : FileTree where
  entries :=
    [(["work"], .directory), (["work", ".git"], .directory)]
      ++ files.map fun f => (["work", ".git"] ++ f.1, f.2)

theorem headNames_main :
    HeadNames ⟨.root, ["work"]⟩ "ref: main" ⟨.root, ["work", ".git", "main"]⟩ := by
  refine ⟨rfl, "main", ?_, ?_⟩
  · rfl
  · rw [Path.child_of_name (by decide), Path.child_of_name (by decide)]
    rfl

/-- A head that names a file: the file tells the commit. -/
theorem currentCommit_unanswered_reference :
    (∀ output, CommitQuery.timedOut ≠ .answered output)
      ∧ currentCommit
        (workingCheckout
          [(["HEAD"], .file (ascii "ref: main")), (["main"], .file (ascii "abc123"))])
        ["work"] ⟨.root, ["work"]⟩ .timedOut = .ok (some "abc123") := by
  have hquery : ∀ output, CommitQuery.timedOut ≠ .answered output := by
    intro output h
    cases h
  refine ⟨hquery, ((currentCommit_unanswered _ _ _ _ hquery).1 _).mpr
    (.reference ?_ headNames_main ?_)⟩
  · rw [headFile_eq]
    rfl
  · rfl

/-- Three heads that fail: one announces a reference and names none, one is not text, and one names a
file that may not be read. -/
theorem currentCommit_fails :
    currentCommit (workingCheckout [(["HEAD"], .file (ascii "ref:"))])
        ["work"] ⟨.root, ["work"]⟩ .unavailable = .error .noReference
      ∧ currentCommit (workingCheckout [(["HEAD"], .file [0xff])])
        ["work"] ⟨.root, ["work"]⟩ .failed
        = .error (.undecodable ⟨0, 0, 0xff, .invalidStart⟩)
      ∧ currentCommit
        (workingCheckout [(["HEAD"], .file (ascii "ref: main")), (["main"], .lockedFile)])
        ["work"] ⟨.root, ["work"]⟩ .timedOut
        = .error (.file (.problem .denied ⟨.root, ["work", ".git", "main"]⟩)) := by
  have hnameless : (workingCheckout [(["HEAD"], .file (ascii "ref:"))]).readTrimmed ["work"]
      (headFile ⟨.root, ["work"]⟩) = .ok "ref:" := by
    rw [headFile_eq]
    rfl
  have hwords : (Text.words "ref:").length < 2 := by
    have hone : (Text.words "ref:").length = 1 := rfl
    rw [hone]
    decide
  have hbytes : (workingCheckout [(["HEAD"], .file [0xff])]).readTrimmed ["work"]
      (headFile ⟨.root, ["work"]⟩) = .error (.undecodable ⟨0, 0, 0xff, .invalidStart⟩) := by
    rw [headFile_eq]
    rfl
  have hreference :
      (workingCheckout [(["HEAD"], .file (ascii "ref: main")), (["main"], .lockedFile)]).readTrimmed
        ["work"] (headFile ⟨.root, ["work"]⟩) = .ok "ref: main" := by
    rw [headFile_eq]
    rfl
  exact ⟨HeadFails.commitFromFiles_eq (.noReference hnameless rfl hwords),
    HeadFails.commitFromFiles_eq (.undecodableHead hbytes),
    HeadFails.commitFromFiles_eq (.readDenied hreference headNames_main rfl rfl)⟩

/-! ## Blanks around the commit -/

section Blanks

variable {t : FileTree} {workingDirectory : Location} {root : Path}

/-- No blanks stand around the text. -/
def Trimmed (text : String) : Prop :=
  (∀ c, text.toList.head? = some c → Text.isBlank c = false)
    ∧ ∀ c, text.toList.getLast? = some c → Text.isBlank c = false

theorem trimmed_strip (cs : List Char) : Trimmed (String.ofList (Text.strip cs)) := by
  refine ⟨fun c h => ?_, fun c h => ?_⟩
  · rw [String.toList_ofList] at h
    exact Text.not_isBlank_of_head?_strip h
  · rw [String.toList_ofList] at h
    exact Text.not_isBlank_of_getLast?_strip h

theorem FileTree.trimmed_of_readTrimmed {p : Path} {text : String}
    (h : t.readTrimmed workingDirectory p = .ok text) : Trimmed text := by
  rw [readTrimmed] at h
  split at h
  · cases h
  · split at h
    · cases h
    · cases h
      exact trimmed_strip _

theorem eq_of_nonEmpty {text c : String} (h : nonEmpty text = some c) : text = c ∧ c ≠ "" := by
  rw [nonEmpty] at h
  split at h
  · cases h
  · next hne =>
    cases h
    exact ⟨rfl, hne⟩

theorem nonEmpty_eq_none_iff {text : String} : nonEmpty text = none ↔ text = "" := by
  rw [nonEmpty]
  split <;> simp [*]

theorem trim_eq_empty_iff {s : String} : Text.trim s = "" ↔ Text.Blank s.toList := by
  rw [← Text.strip_eq_nil_iff, Text.trim, String.ofList_eq_empty_iff]

/-- The head names a file with nothing in it. -/
def NamesBlank (t : FileTree) (workingDirectory : Location) (root : Path) : Prop :=
  ∃ text file, t.readTrimmed workingDirectory (headFile root) = .ok text ∧ HeadNames root text file
    ∧ t.readTrimmed workingDirectory file = .ok ""

/-- The commit that a head tells has no blanks around it, and it is empty only if the head names a
blank file. -/
theorem HeadTells.trimmed {c : String} (h : HeadTells t workingDirectory root (some c)) :
    Trimmed c ∧ (c = "" ↔ NamesBlank t workingDirectory root) := by
  generalize hanswer : some c = answer at h
  cases h with
  | nothing => cases hanswer
  | dangling => cases hanswer
  | commit hread hcommit =>
    obtain ⟨rfl, hne⟩ := eq_of_nonEmpty hanswer.symm
    refine ⟨FileTree.trimmed_of_readTrimmed hread, fun h => absurd h hne, ?_⟩
    rintro ⟨text, file, hread', hnames, -⟩
    cases hread.symm.trans hread'
    exact absurd hnames.1 hcommit
  | reference hread hnames hcommit =>
    cases hanswer
    refine ⟨FileTree.trimmed_of_readTrimmed hcommit, ?_, ?_⟩
    · rintro rfl
      exact ⟨_, _, hread, hnames, hcommit⟩
    · rintro ⟨text, file, hread', hnames', hblank⟩
      cases hread.symm.trans hread'
      cases hnames.parse_eq.symm.trans hnames'.parse_eq
      cases hcommit.symm.trans hblank
      rfl

theorem currentCommit_trimmed {query : CommitQuery} {c : String}
    (h : currentCommit t workingDirectory root query = .ok (some c)) :
    Trimmed c
      ∧ (c = "" ↔ (∀ output, query ≠ .answered output) ∧ NamesBlank t workingDirectory root) := by
  by_cases hanswered : ∃ output, query = .answered output
  · obtain ⟨output, rfl⟩ := hanswered
    obtain ⟨rfl, hne⟩ := eq_of_nonEmpty (Except.ok.inj h)
    exact ⟨trimmed_strip _, fun h => absurd h hne, fun h => absurd rfl (h.1 output)⟩
  · have hquery : ∀ output, query ≠ .answered output := fun output h => hanswered ⟨output, h⟩
    rw [currentCommit_eq_files hquery] at h
    obtain ⟨htrimmed, hempty⟩ := (tells_of_commitFromFiles h).trimmed
    exact ⟨htrimmed, hempty.trans (and_iff_right hquery).symm⟩

end Blanks

/-- A program in the directory `work`. -/
def working (query : CommitQuery) : Surroundings where
  workingDirectory := ["work"]
  commitQuery := query
  number := fun _ => ""

/-- A checkout whose head names a file with nothing but a line break in it. -/
def blankCheckout : FileTree :=
  workingCheckout [(["HEAD"], .file (ascii "ref: main")), (["main"], .file (ascii "\n"))]

theorem repositoryRoot_blankCheckout (query : CommitQuery) :
    (working query).repositoryRoot blankCheckout = .ok ⟨.root, ["work"]⟩ := by
  rfl

theorem perform_commit_blankCheckout :
    (Action.commit (working .unavailable)).perform { files := blankCheckout }
      = (.ok (some ""),
          { files := blankCheckout, questions := [commitQuestion ⟨.root, ["work"]⟩] }) := by
  have hread : blankCheckout.readTrimmed ["work"] (headFile ⟨.root, ["work"]⟩)
      = .ok "ref: main" := by
    rw [headFile_eq]
    rfl
  have hcommit : blankCheckout.readTrimmed ["work"] ⟨.root, ["work", ".git", "main"]⟩ = .ok "" := by
    rfl
  have htells : HeadTells blankCheckout ["work"] ⟨.root, ["work"]⟩ (some "") :=
    .reference hread headNames_main hcommit
  have hanswer : currentCommit blankCheckout ["work"] ⟨.root, ["work"]⟩ .unavailable
      = .ok (some "") := htells.commitFromFiles_eq
  rw [Action.perform_commit (repositoryRoot_blankCheckout .unavailable)]
  exact Prod.ext (congrArg (Except.mapError Failure.commit) hanswer) rfl

/-- **There are no blanks around a commit.**  It is empty in one case only: the version control
program does not answer, and the head names a file with nothing in it.  A blank answer of that
program, and a blank head, are no commit. -/
theorem commit_trimmed (around : Surroundings) (s : Session) :
    (∀ c after, (Action.commit around).perform s = (.ok (some c), after) →
        (∀ ch, c.toList.head? = some ch → Text.isBlank ch = false)
          ∧ (∀ ch, c.toList.getLast? = some ch → Text.isBlank ch = false)
          ∧ (c = "" ↔ (∀ output, around.commitQuery ≠ .answered output)
            ∧ ∃ root, around.repositoryRoot s.files = .ok root
              ∧ NamesBlank s.files around.workingDirectory root))
      ∧ ∀ root, around.repositoryRoot s.files = .ok root →
        (∀ output, around.commitQuery = .answered output →
          (((Action.commit around).perform s).1 = .ok none ↔ Text.Blank output.toList))
        ∧ ∀ text, (∀ output, around.commitQuery ≠ .answered output) →
          s.files.readTrimmed around.workingDirectory (headFile root) = .ok text →
          ¬Announces text → (((Action.commit around).perform s).1 = .ok none ↔ text = "") := by
  refine ⟨fun c after h => ?_, fun root hroot => ⟨fun output hquery => ?_, fun text hquery hread
    hcommit => ?_⟩⟩
  · obtain ⟨root, hroot, hc⟩ := Action.exists_of_perform_commit h
    obtain ⟨⟨hfirst, hlast⟩, hempty⟩ := currentCommit_trimmed hc
    refine ⟨hfirst, hlast, hempty.trans (and_congr_right fun _ => ⟨fun h => ⟨root, hroot, h⟩, ?_⟩)⟩
    rintro ⟨root', hroot', hblank⟩
    cases hroot.symm.trans hroot'
    exact hblank
  · rw [Action.perform_commit hroot, hquery, ← trim_eq_empty_iff, ← nonEmpty_eq_none_iff]
    exact ⟨Except.ok.inj, congrArg Except.ok⟩
  · have hc := (HeadTells.commit hread hcommit).commitFromFiles_eq
    rw [Action.perform_commit hroot, currentCommit_eq_files hquery, hc, ← nonEmpty_eq_none_iff]
    exact ⟨Except.ok.inj, congrArg Except.ok⟩

/-- A head that names a blank file, which the rule for an empty commit then finds; and a blank
answer to the same question, which is no commit. -/
theorem commit_trimmed_blank :
    (∃ after, (Action.commit (working .unavailable)).perform { files := blankCheckout }
        = (.ok (some ""), after))
      ∧ (∃ root, (working .unavailable).repositoryRoot blankCheckout = .ok root
        ∧ NamesBlank blankCheckout ["work"] root)
      ∧ Text.Blank " \n".toList
      ∧ ((Action.commit (working (.answered " \n"))).perform { files := blankCheckout }).1
        = .ok none := by
  obtain ⟨hcommit, -⟩ := commit_trimmed (working .unavailable) { files := blankCheckout }
  obtain ⟨-, hanswers⟩ := commit_trimmed (working (.answered " \n")) { files := blankCheckout }
  obtain ⟨-, -, hempty⟩ := hcommit "" _ perform_commit_blankCheckout
  have hblank : Text.Blank " \n".toList := by decide
  have hnone := (hanswers _ (repositoryRoot_blankCheckout _)).1 " \n" rfl
  exact ⟨⟨_, perform_commit_blankCheckout⟩, (hempty.mp rfl).2, hblank, hnone.mpr hblank⟩

/-- An empty commit is told, as if it were one. -/
theorem commit_blank : ∃ after,
    (Action.commit (working .unavailable)).perform { files := blankCheckout }
      = (.ok (some ""), after) :=
  ⟨_, perform_commit_blankCheckout⟩

end Noughts
