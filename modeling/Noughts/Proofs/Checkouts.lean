import Mathlib.Data.List.Infix
import Noughts.Checkout
import Noughts.Proofs.RealPaths

/-!
# The search for a checkout

A checkout is found from inside.  The search goes up from its start, one directory at a time, to the
first that has an entry `.git`; but it looks at five locations at most, the start itself and four
above it, and at fewer if it comes to the root before.

* **The walk.**  What it comes to is said in terms of its lookups.  All of them up to the one that
  decides have answered that there is nothing (`IsFirst`): the one that decides finds something
  (`nearestCheckout?_eq_some_iff`), or has no answer (`nearestCheckout?_eq_error_iff`).  It finds
  nothing if all have answered so (`nearestCheckout?_eq_none_iff`).
* **The lookups.**  Looking up an entry means following the path to it, which may be barred.  Where
  it is not, the entry is found if it is there and leads anywhere
  (`FileTree.exists?_checkoutEntry_eq_true_iff`): a link that leads nowhere is as good as none.
* **The trees.**  Nothing matters but what is met on the way to the five entries
  (`nearestCheckout?_eq_of_meets`).  Without links these are the entries themselves and the
  directories that lead there, so that checkouts further up and elsewhere make no difference.

`repositoryRoot_found` puts this together with what the environment says.
-/

set_option autoImplicit false

namespace Noughts

/-! ## Ancestors -/

section Ancestors

variable {P Q : Location → Prop} {depth : Nat} {start l : Location}

/-- The location some steps up from another. -/
def ancestor (start : Location) (k : Nat) : Location := start.take (start.length - k)

@[simp] theorem ancestor_zero (start : Location) : ancestor start 0 = start := by
  rw [ancestor, Nat.sub_zero, List.take_length]

theorem ancestor_dropLast (start : Location) (k : Nat) :
    ancestor start.dropLast k = ancestor start (k + 1) := by
  have hlength : start.length - 1 - k = start.length - (k + 1) := by omega
  rw [ancestor, ancestor, List.length_dropLast, List.dropLast_eq_take, List.take_take, hlength,
    Nat.min_eq_left (by omega)]

/-- Of a location and its ancestors, `l` is the first with a property, and those before it all have
another.  So many of them count, the location itself included. -/
def IsFirst (P Q : Location → Prop) (depth : Nat) (start l : Location) : Prop :=
  ∃ k < depth, k ≤ start.length ∧ l = ancestor start k ∧ P l ∧ ∀ j < k, Q (ancestor start j)

/-- So many of a location and its ancestors have a property, or all, if there are fewer. -/
def Throughout (Q : Location → Prop) (depth : Nat) (start : Location) : Prop :=
  ∀ k < depth, k ≤ start.length → Q (ancestor start k)

/-- A location that does not have the other property is the first, or there is none. -/
theorem isFirst_of_not (h : ¬Q start) :
    IsFirst P Q (depth + 1) start l ↔ P start ∧ l = start := by
  constructor
  · rintro ⟨k, -, -, rfl, hhere, hbefore⟩
    cases k with
    | zero =>
      rw [ancestor_zero] at hhere ⊢
      exact ⟨hhere, rfl⟩
    | succ k =>
      refine absurd ?_ h
      rw [← ancestor_zero start]
      exact hbefore 0 (Nat.succ_pos k)
  · rintro ⟨hhere, rfl⟩
    exact ⟨0, Nat.succ_pos depth, Nat.zero_le _, (ancestor_zero l).symm, hhere, by simp⟩

/-- From one that is passed, the search goes on above. -/
theorem isFirst_of_passed (hhere : ¬P start) (hpassed : Q start) :
    IsFirst P Q (depth + 1) start l ↔ start ≠ [] ∧ IsFirst P Q depth start.dropLast l := by
  constructor
  · rintro ⟨k, hk, hlength, rfl, hfirst, hbefore⟩
    cases k with
    | zero =>
      rw [ancestor_zero] at hfirst
      exact absurd hfirst hhere
    | succ k =>
      refine ⟨List.ne_nil_of_length_pos (by omega), k, by omega, ?_,
        (ancestor_dropLast start k).symm, hfirst, fun j hj => ?_⟩
      · rw [List.length_dropLast]
        omega
      · rw [ancestor_dropLast]
        exact hbefore (j + 1) (by omega)
  · rintro ⟨hne, k, hk, hlength, rfl, hfirst, hbefore⟩
    rw [List.length_dropLast] at hlength
    have hpos := List.length_pos_iff.mpr hne
    refine ⟨k + 1, by omega, by omega, ancestor_dropLast start k, hfirst, fun j hj => ?_⟩
    cases j with
    | zero => rwa [ancestor_zero]
    | succ j =>
      rw [← ancestor_dropLast]
      exact hbefore j (by omega)

theorem throughout_succ :
    Throughout Q (depth + 1) start ↔ Q start ∧ (start ≠ [] → Throughout Q depth start.dropLast) := by
  constructor
  · intro h
    refine ⟨?_, fun hne k hk hlength => ?_⟩
    · rw [← ancestor_zero start]
      exact h 0 (Nat.succ_pos depth) (Nat.zero_le _)
    · rw [List.length_dropLast] at hlength
      have hpos := List.length_pos_iff.mpr hne
      rw [ancestor_dropLast]
      exact h (k + 1) (by omega) (by omega)
  · rintro ⟨hhere, habove⟩ k hk hlength
    cases k with
    | zero => rwa [ancestor_zero]
    | succ k =>
      rw [← ancestor_dropLast]
      refine habove (List.ne_nil_of_length_pos (by omega)) k (by omega) ?_
      rw [List.length_dropLast]
      omega

theorem isFirst_congr {P' Q' : Location → Prop} (hP : ∀ l, P l ↔ P' l) (hQ : ∀ l, Q l ↔ Q' l) :
    IsFirst P Q depth start l ↔ IsFirst P' Q' depth start l :=
  exists_congr fun _ => and_congr_right fun _ => and_congr_right fun _ => and_congr_right fun _ =>
    and_congr (hP l) (forall₂_congr fun _ _ => hQ _)

theorem throughout_congr {Q' : Location → Prop} (hQ : ∀ l, Q l ↔ Q' l) :
    Throughout Q depth start ↔ Throughout Q' depth start :=
  forall₃_congr fun _ _ _ => hQ _

end Ancestors

/-! ## The walk -/

/-- Looking up the entry `.git` of a location has the given answer, or none. -/
def FileTree.Answers (t : FileTree) (answer : Except FileError Bool) (l : Location) : Prop :=
  t.exists? [] (checkoutEntry l) = answer

section Search

variable {t : FileTree} {start : Location}

theorem FileTree.Answers.eq {answer answer' : Except FileError Bool} {l : Location}
    (h : t.Answers answer l) (h' : t.Answers answer' l) : answer = answer' :=
  h.symm.trans h'

theorem nearestCheckout?_of_there (h : t.Answers (.ok true) start) (depth : Nat) :
    nearestCheckout? t (depth + 1) start = .ok (some start) := by
  rw [nearestCheckout?, h]

theorem nearestCheckout?_of_absent (h : t.Answers (.ok false) start) (depth : Nat) :
    nearestCheckout? t (depth + 1) start
      = if start = [] then .ok none else nearestCheckout? t depth start.dropLast := by
  rw [nearestCheckout?, h]

theorem nearestCheckout?_of_error {e : FileError} (h : t.Answers (.error e) start) (depth : Nat) :
    nearestCheckout? t (depth + 1) start = .error e := by
  rw [nearestCheckout?, h]

/-- **The search finds the first one**, if no lookup before is without an answer. -/
theorem nearestCheckout?_eq_some_iff (t : FileTree) (depth : Nat) (start l : Location) :
    nearestCheckout? t depth start = .ok (some l)
      ↔ IsFirst (t.Answers (.ok true)) (t.Answers (.ok false)) depth start l := by
  induction depth generalizing start with
  | zero => simp [nearestCheckout?, IsFirst]
  | succ depth ih =>
    match hhere : t.exists? [] (checkoutEntry start) with
    | .ok true =>
      rw [nearestCheckout?_of_there hhere, isFirst_of_not fun habsent => nomatch habsent.eq hhere]
      simp [FileTree.Answers, hhere, eq_comm]
    | .ok false =>
      rw [nearestCheckout?_of_absent hhere,
        isFirst_of_passed (fun hthere => nomatch hthere.eq hhere) hhere, ← ih]
      split_ifs with hroot <;> simp [hroot]
    | .error e =>
      rw [nearestCheckout?_of_error hhere, isFirst_of_not fun habsent => nomatch habsent.eq hhere]
      simp [FileTree.Answers, hhere]

/-- It is ended by the first lookup that has no answer. -/
theorem nearestCheckout?_eq_error_iff (t : FileTree) (depth : Nat) (start : Location)
    (e : FileError) :
    nearestCheckout? t depth start = .error e
      ↔ ∃ l, IsFirst (t.Answers (.error e)) (t.Answers (.ok false)) depth start l := by
  induction depth generalizing start with
  | zero => simp [nearestCheckout?, IsFirst]
  | succ depth ih =>
    match hhere : t.exists? [] (checkoutEntry start) with
    | .ok true =>
      rw [nearestCheckout?_of_there hhere,
        exists_congr fun _ => isFirst_of_not fun habsent => nomatch habsent.eq hhere]
      simp [FileTree.Answers, hhere]
    | .ok false =>
      rw [nearestCheckout?_of_absent hhere, exists_congr fun _ =>
        isFirst_of_passed (fun hfails => nomatch hfails.eq hhere) hhere, exists_and_left, ← ih]
      split_ifs with hroot <;> simp [hroot]
    | .error e' =>
      rw [nearestCheckout?_of_error hhere,
        exists_congr fun _ => isFirst_of_not fun habsent => nomatch habsent.eq hhere]
      simp [FileTree.Answers, hhere]

/-- It finds nothing if there is nothing where it looks. -/
theorem nearestCheckout?_eq_none_iff (t : FileTree) (depth : Nat) (start : Location) :
    nearestCheckout? t depth start = .ok none ↔ Throughout (t.Answers (.ok false)) depth start := by
  induction depth generalizing start with
  | zero => simp [nearestCheckout?, Throughout]
  | succ depth ih =>
    rw [throughout_succ]
    match hhere : t.exists? [] (checkoutEntry start) with
    | .ok true => simp [nearestCheckout?_of_there hhere, FileTree.Answers, hhere]
    | .ok false =>
      have habsent : t.Answers (.ok false) start := hhere
      rw [nearestCheckout?_of_absent habsent, and_iff_right habsent, ← ih]
      split_ifs with hroot <;> simp [hroot]
    | .error e => simp [nearestCheckout?_of_error hhere, FileTree.Answers, hhere]

end Search

/-! ## The lookups -/

namespace FileTree

variable {t : FileTree} {l : Location}

/-- Names lead to an entry, with so many links on the way at most. -/
def Leads (t : FileTree) (links : Nat) (here : Location) (names : List String) : Prop :=
  ∃ m left, t.follow links here names = .ok (m, left) ∧ (t.node? m).isSome

/-- An entry of a directory leads to something.  Only a link can fail to. -/
def LeadsOn (t : FileTree) (links : Nat) (above : Location) : FileNode → Prop
  | .link target => ∃ left, links = left + 1 ∧ t.Leads left (origin above target) target.names
  | _ => True

/-- The location leads to a directory with an entry `.git` that leads to something. -/
def HasCheckout (t : FileTree) (l : Location) : Prop :=
  (⟨.root, l⟩ : Path).hasZero = false ∧ ∃ here left node,
    t.follow mostLinks [] l = .ok (here, left) ∧ t.node? here = some .directory
      ∧ t.node? (here ++ [".git"]) = some node ∧ t.LeadsOn left here node

/-- An entry `.git` can be looked up at the location, whether it is there or not. -/
def Searchable (t : FileTree) (l : Location) : Prop :=
  ∀ problem, ¬Barred t [] (checkoutEntry l) problem

/-- It cannot be looked up, and this is the error. -/
def Unanswered (t : FileTree) (e : FileError) (l : Location) : Prop :=
  ∃ problem, Barred t [] (checkoutEntry l) problem ∧ e = .problem problem (checkoutEntry l)

theorem hasZero_checkoutEntry (l : Location) :
    (checkoutEntry l).hasZero = (⟨.root, l⟩ : Path).hasZero := by
  have hentry : checkoutEntry l = (⟨.root, l⟩ : Path).child ".git" := by
    rw [Path.child_of_name (by decide), checkoutEntry]
  rw [hentry, Path.hasZero_child (by decide) (by decide)]

/-- They lead on from a directory, if there is an entry and it does not lead nowhere itself. -/
theorem leads_git_iff {links : Nat} {here : Location} :
    t.Leads links here [".git"]
      ↔ t.node? here = some .directory
        ∧ ∃ node, t.node? (here ++ [".git"]) = some node ∧ t.LeadsOn links here node := by
  have hback : ¬".git" = ".." := by decide
  have hsize : ¬longestName < ".git".utf8ByteSize := by decide
  rw [Leads, follow_cons]
  match hnode : t.node? here with
  | some .directory =>
    simp only [if_neg hback, if_neg hsize, true_and]
    match hentry : t.node? (here ++ [".git"]) with
    | some (.link target) =>
      cases links with
      | zero => simp [LeadsOn]
      | succ links => simp [LeadsOn, Leads]
    | none => simp [hentry]
    | some (.file _) => simp [hentry, LeadsOn]
    | some .lockedFile => simp [hentry, LeadsOn]
    | some .directory => simp [hentry, LeadsOn]
    | some .lockedDirectory => simp [hentry, LeadsOn]
  | none => simp
  | some (.file _) => simp
  | some .lockedFile => simp
  | some .lockedDirectory => simp
  | some (.link _) => simp

/-- **A lookup that has an answer says whether there is a checkout.** -/
theorem exists?_checkoutEntry_eq_true_iff :
    t.Answers (.ok true) l ↔ t.Searchable l ∧ t.HasCheckout l := by
  rw [Answers, exists?_eq_true_iff]
  constructor
  · rintro ⟨m, hlocate⟩
    obtain ⟨hzero, -, left, hled, hthere⟩ := locate_eq_ok_iff.mp hlocate
    obtain ⟨here, links, hl, hgit⟩ := follow_append_eq_ok_iff.mp hled
    obtain ⟨hdirectory, node, hnode, hon⟩ := leads_git_iff.mp ⟨m, left, hgit, hthere⟩
    rw [hasZero_checkoutEntry] at hzero
    refine ⟨fun problem hbarred => ?_, hzero, here, links, node, hl, hdirectory, hnode, hon⟩
    cases hlocate.symm.trans hbarred.locate_eq
  · rintro ⟨hsearch, hzero, here, links, node, hl, hdirectory, hnode, hon⟩
    obtain ⟨m, left, hgit, hthere⟩ := leads_git_iff.mpr ⟨hdirectory, node, hnode, hon⟩
    have hled : t.follow mostLinks [] (l ++ [".git"]) = .ok (m, left) :=
      follow_append_eq_ok_iff.mpr ⟨here, links, hl, hgit⟩
    rw [← hasZero_checkoutEntry] at hzero
    refine ⟨m, locate_eq_ok_iff.mpr ⟨hzero, Nat.not_lt.mp fun hlong => ?_, left, hled, hthere⟩⟩
    exact hsearch _ (.tooLong hzero hlong)

/-- It has none where the way is barred. -/
theorem exists?_checkoutEntry_eq_error_iff {e : FileError} :
    t.Answers (.error e) l ↔ t.Unanswered e l :=
  exists?_eq_error_iff

theorem exists?_checkoutEntry_eq_false_iff :
    t.Answers (.ok false) l ↔ t.Searchable l ∧ ¬t.HasCheckout l := by
  constructor
  · intro habsent
    have hsearch : t.Searchable l := fun problem hbarred =>
      nomatch habsent.eq (exists?_checkoutEntry_eq_error_iff.mpr ⟨problem, hbarred, rfl⟩)
    refine ⟨hsearch, fun hthere => ?_⟩
    cases habsent.eq (exists?_checkoutEntry_eq_true_iff.mpr ⟨hsearch, hthere⟩)
  · rintro ⟨hsearch, hnone⟩
    match hanswer : t.exists? [] (checkoutEntry l) with
    | .ok false => exact hanswer
    | .ok true => exact absurd (exists?_checkoutEntry_eq_true_iff.mp hanswer).2 hnone
    | .error e =>
      obtain ⟨problem, hbarred, -⟩ := exists?_checkoutEntry_eq_error_iff.mp hanswer
      exact absurd hbarred (hsearch problem)

end FileTree

/-! ## What the search depends on -/

/-- **The search depends on what is met** on the way to the entries that it looks up, and so does
the error that ends it. -/
theorem nearestCheckout?_eq_of_meets {t t' : FileTree} (depth : Nat) (start : Location)
    (h : ∀ k < depth, k ≤ start.length → ∀ m,
      t.Meets FileTree.mostLinks [] (ancestor start k ++ [".git"]) m → t.node? m = t'.node? m) :
    nearestCheckout? t depth start = nearestCheckout? t' depth start := by
  induction depth generalizing start with
  | zero => rfl
  | succ depth ih =>
    have hhere : t.exists? [] (checkoutEntry start) = t'.exists? [] (checkoutEntry start) := by
      refine FileTree.exists?_eq_of_meets fun m hm => h 0 (Nat.succ_pos depth) (Nat.zero_le _) m ?_
      rw [ancestor_zero]
      exact hm
    rw [nearestCheckout?, nearestCheckout?, ← hhere]
    split
    · rfl
    · rfl
    · split_ifs with hroot
      · rfl
      · refine ih start.dropLast fun k hk hlength m hm => ?_
        rw [List.length_dropLast] at hlength
        have hpos := List.length_pos_iff.mpr hroot
        rw [ancestor_dropLast] at hm
        exact h (k + 1) (by omega) (by omega) m hm

/-! ## The root and the results -/

namespace Surroundings

variable {around : Surroundings} {t : FileTree} {given : String}

/-- A setting is as good as none if it is empty. -/
def Unset (value : Option String) : Prop := value = none ∨ value = some ""

theorem given_of_ne (h : given ≠ "") : Environment.given (some given) = some given := by
  simp [Environment.given, h]

theorem Unset.given_eq_none {value : Option String} (h : Unset value) :
    Environment.given value = none := by
  rcases h with rfl | rfl
  · rfl
  · simp [Environment.given]

/-- The root that is searched for, when none is named. -/
theorem repositoryRoot_of_resolved (h : Unset around.environment.repository) {file : Path}
    (hfile : t.resolve around.workingDirectory around.programFile = .ok file) :
    around.repositoryRoot t = (nearestCheckout? t searchDepth file.names).map
      fun found => ⟨.root, found.getD around.workingDirectory⟩ := by
  rw [repositoryRoot, h.given_eq_none, hfile]
  dsimp only
  rcases nearestCheckout? t searchDepth file.names with e | _ | l <;> rfl

theorem repositoryRoot_of_unresolved (h : Unset around.environment.repository) {e : FileError}
    (hfile : t.resolve around.workingDirectory around.programFile = .error e) :
    around.repositoryRoot t = .error e := by
  rw [repositoryRoot, h.given_eq_none, hfile]

/-- **Where the repository is.**  The search looks at its start and at the four directories above,
as far as there are any, and finds the nearest of them that has an entry `.git`.  It gives up at a
location where it cannot be told, if there is no checkout before.  Nothing else but what is met on
the way to these entries makes a difference, and without links that is what leads there.

The root of the repository is the one that the environment names; without one it is the directory
that is found from the program's own file, resolved, and the working directory if none is.  Results
go where the environment says, and under the root without it. -/
theorem repositoryRoot_found (t : FileTree) (around : Surroundings) :
    (∀ start,
        (∀ l, nearestCheckout? t searchDepth start = .ok (some l)
          ↔ IsFirst (fun l => t.Searchable l ∧ t.HasCheckout l)
              (fun l => t.Searchable l ∧ ¬t.HasCheckout l) 5 start l)
        ∧ (nearestCheckout? t searchDepth start = .ok none
          ↔ Throughout (fun l => t.Searchable l ∧ ¬t.HasCheckout l) 5 start)
        ∧ (∀ e, nearestCheckout? t searchDepth start = .error e
          ↔ ∃ l, IsFirst (t.Unanswered e) (fun l => t.Searchable l ∧ ¬t.HasCheckout l) 5 start l))
      ∧ (∀ (t' : FileTree) (start : Location),
          (∀ k < 5, k ≤ start.length → ∀ m,
            t.Meets FileTree.mostLinks [] (ancestor start k ++ [".git"]) m →
              t.node? m = t'.node? m) →
          nearestCheckout? t searchDepth start = nearestCheckout? t' searchDepth start)
      ∧ (∀ l m, ".." ∉ l →
          (∀ above, above <+: l ++ [".git"] → ∀ target, t.node? above ≠ some (.link target)) →
          t.Meets FileTree.mostLinks [] (l ++ [".git"]) m → m <+: l ++ [".git"])
      ∧ (∀ given, around.environment.repository = some given → given ≠ "" →
          around.repositoryRoot t = .ok (.ofString given))
      ∧ (Unset around.environment.repository →
          (∀ file, t.resolve around.workingDirectory around.programFile = .ok file →
            file.anchor = .root ∧ ".." ∉ file.names
              ∧ around.repositoryRoot t = (nearestCheckout? t searchDepth file.names).map
                  fun found => ⟨.root, found.getD around.workingDirectory⟩)
          ∧ (∀ e, t.resolve around.workingDirectory around.programFile = .error e →
            (e = .zeroCharacter ∨ ∃ q, e = .linkLoop q) ∧ around.repositoryRoot t = .error e))
      ∧ (∀ given, around.environment.results = some given → given ≠ "" →
          around.resultsDirectory t = .ok (.ofString given))
      ∧ (Unset around.environment.results →
          around.resultsDirectory t = (around.repositoryRoot t).map
            fun root => ⟨root.anchor, root.names ++ ["results"]⟩) := by
  refine ⟨fun start => ⟨fun l => ?_, ?_, fun e => ?_⟩,
    fun t' start hmeets => nearestCheckout?_eq_of_meets searchDepth start hmeets,
    fun l m hplain hlinks hm => ?_, fun given hgiven hne => ?_,
    fun hunset => ⟨fun file hfile => ?_, fun e he => ?_⟩,
    fun given hgiven hne => ?_, fun hunset => ?_⟩
  · rw [nearestCheckout?_eq_some_iff]
    exact isFirst_congr (fun _ => FileTree.exists?_checkoutEntry_eq_true_iff)
      fun _ => FileTree.exists?_checkoutEntry_eq_false_iff
  · rw [nearestCheckout?_eq_none_iff]
    exact throughout_congr fun _ => FileTree.exists?_checkoutEntry_eq_false_iff
  · rw [nearestCheckout?_eq_error_iff]
    exact exists_congr fun _ =>
      isFirst_congr (fun _ => FileTree.exists?_checkoutEntry_eq_error_iff)
        fun _ => FileTree.exists?_checkoutEntry_eq_false_iff
  · have hplain' : ".." ∉ l ++ [".git"] := by simpa using hplain
    have habove : m <+: [] ++ (l ++ [".git"]) := FileTree.prefix_of_meets hplain' hlinks hm
    exact habove
  · rw [repositoryRoot, hgiven, given_of_ne hne]
  · obtain ⟨hanchor, hnames⟩ := FileTree.resolve_eq_ok hfile
    exact ⟨hanchor, hnames, repositoryRoot_of_resolved hunset hfile⟩
  · exact ⟨FileTree.resolve_error_cases he, repositoryRoot_of_unresolved hunset he⟩
  · rw [resultsDirectory, hgiven, given_of_ne hne]
  · rw [resultsDirectory, hunset.given_eq_none]
    simp only [Path.child_of_name (by decide : Path.IsName "results")]

/-- A checkout two steps below the root, and what there is besides. -/
def nested (besides : List (Location × FileNode)) : FileTree :=
  ⟨besides ++ [(["home"], .directory), (["home", "work"], .directory),
    (["home", "work", ".git"], .directory), (["home", "work", "src"], .directory)]⟩

/-- A program whose own file is five steps below the root, and to which nothing is named. -/
def inside : Surroundings where
  environment := { repository := some "" }
  programFile := ⟨.root, ["home", "work", "src", "pkg", "tool"]⟩
  number := fun _ => ""

theorem linkless_nested : (nested []).Linkless :=
  FileTree.linkless_of_entries (by simp [nested])

theorem nearestCheckout?_nested :
    nearestCheckout? (nested []) searchDepth inside.programFile.names
      = .ok (some ["home", "work"]) := by
  decide +kernel

/-- A checkout at the root, to which the search does not come, is no different from none. -/
theorem node?_nested (k : Nat) (hk : k < 5) (m : Location)
    (hm : m <+: ancestor inside.programFile.names k ++ [".git"]) :
    (nested []).node? m = (nested [([".git"], .directory)]).node? m := by
  have hall : ∀ k < 5, ∀ m ∈ (ancestor inside.programFile.names k ++ [".git"]).inits,
      (nested []).node? m = (nested [([".git"], .directory)]).node? m := by decide +kernel
  exact hall k hk m ((List.mem_inits _ _).mpr hm)

theorem repositoryRoot_found_nested :
    Unset inside.environment.repository
      ∧ (nested []).Searchable ["home", "work"] ∧ (nested []).HasCheckout ["home", "work"]
      ∧ inside.repositoryRoot (nested []) = .ok ⟨.root, ["home", "work"]⟩
      ∧ inside.resultsDirectory (nested []) = .ok ⟨.root, ["home", "work", "results"]⟩
      ∧ nearestCheckout? (nested [([".git"], .directory)]) searchDepth inside.programFile.names
        = .ok (some ["home", "work"]) := by
  have hunset : Unset inside.environment.repository := .inr rfl
  have hfile : (nested []).resolve inside.workingDirectory inside.programFile
      = .ok inside.programFile := by
    rw [linkless_nested.resolve_eq (by decide)]
    decide
  obtain ⟨hsearch, hlocal, hmeets, -, hroot, -, hresults⟩ :=
    repositoryRoot_found (nested []) inside
  obtain ⟨_, _, _, _, hthere, -⟩ := ((hsearch _).1 _).mp nearestCheckout?_nested
  obtain ⟨-, hplain, hfound⟩ := (hroot hunset).1 _ hfile
  rw [nearestCheckout?_nested] at hfound
  refine ⟨hunset, hthere.1, hthere.2, hfound, ?_, ?_⟩
  · rw [hresults (.inl rfl), hfound]
    rfl
  · rw [← hlocal _ _ fun k hk _ m hm => node?_nested k hk m <|
      hmeets _ m (fun hdots => hplain (List.mem_of_mem_take hdots))
        (fun above _ => linkless_nested above) hm]
    exact nearestCheckout?_nested

/-- A link that leads nowhere is passed. -/
example : nearestCheckout?
      ((nested []).place ["home", "work", "src", ".git"] (.link ⟨.here, ["gone"]⟩)) searchDepth
      inside.programFile.names
    = .ok (some ["home", "work"]) := by
  decide +kernel

/-- A directory that may not be searched is not. -/
example : nearestCheckout? ((nested []).place ["home", "work", "src"] .lockedDirectory) searchDepth
      inside.programFile.names
    = .error (.problem .denied (checkoutEntry inside.programFile.names)) := by
  decide +kernel

/-! ### A path that is just not too long -/

/-- A file, and the directories that lead there. -/
def fileAlone (l : Location) : FileTree :=
  ⟨(l, .file []) :: l.inits.map fun above => (above, .directory)⟩

section FileAlone

variable {l m : Location}

theorem linkless_fileAlone (l : Location) : (fileAlone l).Linkless :=
  FileTree.linkless_of_entries (by simp [fileAlone])

theorem node?_fileAlone_self (h : l ≠ []) : (fileAlone l).node? l = some (.file []) := by
  simp [FileTree.node?, fileAlone, h]

theorem node?_fileAlone_above (hm : m <+: l) (hne : m ≠ l) :
    (fileAlone l).node? m = some .directory := by
  rw [FileTree.node?]
  split_ifs with hroot
  · rfl
  · have hfound : ((fileAlone l).entries.find? fun e => e.1 = m).isSome :=
      List.find?_isSome.mpr ⟨(m, .directory), by simp [fileAlone, hm], by simp⟩
    obtain ⟨e, he⟩ := Option.isSome_iff_exists.mp hfound
    have hlocation : e.1 = m := by simpa using List.find?_some he
    rw [he, Option.map_some]
    rcases List.mem_cons.mp (List.mem_of_find?_eq_some he) with rfl | hmem
    · exact absurd hlocation.symm hne
    · obtain ⟨_, -, rfl⟩ := List.mem_map.mp hmem
      rfl

theorem prefix_of_node?_fileAlone {node : FileNode} (h : (fileAlone l).node? m = some node) :
    m <+: l := by
  rw [FileTree.node?] at h
  split_ifs at h with hroot
  · rw [hroot]
    exact List.nil_prefix
  · obtain ⟨e, he, -⟩ := Option.map_eq_some_iff.mp h
    have hlocation : e.1 = m := by simpa using List.find?_some he
    rw [← hlocation]
    rcases List.mem_cons.mp (List.mem_of_find?_eq_some he) with rfl | hmem
    · exact List.prefix_rfl
    · obtain ⟨above, habove, rfl⟩ := List.mem_map.mp hmem
      exact (List.mem_inits _ _).mp habove

theorem node?_fileAlone_git (h : ".git" ∉ l) (above : Location) :
    (fileAlone l).node? (above ++ [".git"]) = none := by
  match hnode : (fileAlone l).node? (above ++ [".git"]) with
  | none => rfl
  | some node => exact absurd ((prefix_of_node?_fileAlone hnode).mem (by simp)) h

/-- A path to the file, all of whose names are plain and short enough, leads to it. -/
theorem exists?_fileAlone (hne : l ≠ []) (hplain : ".." ∉ l)
    (hsizes : ∀ name ∈ l, name.utf8ByteSize ≤ FileTree.longestName)
    (hzero : (⟨.root, l⟩ : Path).hasZero = false)
    (hsize : (⟨.root, l⟩ : Path).text.utf8ByteSize ≤ FileTree.longestPath) :
    (fileAlone l).exists? [] ⟨.root, l⟩ = .ok true := by
  have hwalk : (fileAlone l).walk [] l = .ok (.arrived ([] ++ l)) :=
    FileTree.walk_of_directories hplain hsizes (fun _ _ => linkless_fileAlone l _)
      fun _ => node?_fileAlone_above
  have hthere : ((fileAlone l).node? l).isSome := by
    rw [node?_fileAlone_self hne]
    rfl
  exact FileTree.exists?_eq_true_iff.mpr ⟨l, FileTree.locate_eq_ok_iff.mpr
    ⟨hzero, hsize, _, FileTree.follow_of_arrived hwalk _, hthere⟩⟩

/-- A program whose own file has the given location. -/
def runFrom (l : Location) : Surroundings where
  programFile := ⟨.root, l⟩
  number := fun _ => ""

/-- If nothing can be added to the path, the search is over at once. -/
theorem repositoryRoot_runFrom (hplain : ".." ∉ l) (hzero : (⟨.root, l⟩ : Path).hasZero = false)
    (hlong : FileTree.longestPath < (checkoutEntry l).text.utf8ByteSize) :
    (runFrom l).repositoryRoot (fileAlone l)
      = .error (.problem .nameTooLong (checkoutEntry l)) := by
  have hfile : (fileAlone l).resolve [] ⟨.root, l⟩ = .ok ⟨.root, l⟩ := by
    rw [(linkless_fileAlone l).resolve_eq (by decide), if_neg (Bool.eq_false_iff.mp hzero),
      Path.absolute, Path.absoluteNames, Path.settle_eq_self hplain]
  rw [← FileTree.hasZero_checkoutEntry] at hzero
  have hlookup : (fileAlone l).Answers (.error (.problem .nameTooLong (checkoutEntry l))) l :=
    FileTree.exists?_checkoutEntry_eq_error_iff.mpr ⟨_, .tooLong hzero hlong, rfl⟩
  rw [repositoryRoot_of_resolved (.inl rfl) hfile, searchDepth, nearestCheckout?_of_error hlookup]
  rfl

end FileAlone

/-- A name of as many letters as wanted. -/
def nameOf (n : Nat) : String := String.ofList (List.replicate n 'n')

theorem size_nameOf (n : Nat) : (nameOf n).utf8ByteSize = n := by
  induction n with
  | zero => rfl
  | succ n ih =>
    rw [nameOf, List.replicate_succ, ← List.singleton_append, String.ofList_append,
      String.utf8ByteSize_append, ← nameOf, ih]
    exact Nat.add_comm 1 n

theorem zero_notMem_nameOf (n : Nat) : '\x00' ∉ (nameOf n).toList := by
  simp [nameOf]

theorem nameOf_ne {n : Nat} {s : String} (h : 'n' ∉ s.toList) (hn : n ≠ 0) : nameOf n ≠ s := by
  rintro rfl
  simp [nameOf, hn] at h

/-- A path of as many bytes as there can be, with four to spare. -/
def longPath : Location := List.replicate 15 (nameOf 255) ++ [nameOf 250]

theorem mem_longPath {name : String} (h : name ∈ longPath) :
    name = nameOf 255 ∨ name = nameOf 250 := by
  rw [longPath, List.mem_append, List.mem_replicate, List.mem_singleton] at h
  exact h.imp_left And.right

theorem notMem_longPath {s : String} (h : 'n' ∉ s.toList) : s ∉ longPath := by
  intro hmem
  rcases mem_longPath hmem with hs | hs
  · exact nameOf_ne h (by decide) hs.symm
  · exact nameOf_ne h (by decide) hs.symm

theorem hasZero_longPath : (⟨.root, longPath⟩ : Path).hasZero = false := by
  rw [Path.hasZero, List.any_eq_false]
  intro name hname
  rcases mem_longPath hname with rfl | rfl <;> simp [zero_notMem_nameOf]

theorem size_text_longPath (behind : List String) :
    (⟨.root, longPath ++ behind⟩ : Path).text.utf8ByteSize
      = 4091 + (behind.map fun name => name.utf8ByteSize + 1).sum := by
  rw [Path.size_text_root]
  simp only [longPath, List.map_append, List.map_replicate, size_nameOf, List.sum_append,
    List.sum_replicate_nat, List.map_cons, List.map_nil, List.sum_cons, List.sum_nil]
  omega

/-- **A path to which nothing can be added stops the search**, even if there is no entry `.git` at
all. -/
theorem repositoryRoot_longPath :
    (fileAlone longPath).exists? [] (runFrom longPath).programFile = .ok true
      ∧ (∀ above, (fileAlone longPath).node? (above ++ [".git"]) = none)
      ∧ (runFrom longPath).repositoryRoot (fileAlone longPath)
        = .error (.problem .nameTooLong (checkoutEntry longPath)) := by
  have hplain : ".." ∉ longPath := notMem_longPath (by decide)
  have hsizes (name : String) (h : name ∈ longPath) :
      name.utf8ByteSize ≤ FileTree.longestName := by
    rcases mem_longPath h with rfl | rfl <;> rw [size_nameOf] <;> decide
  have hsize : (⟨.root, longPath⟩ : Path).text.utf8ByteSize ≤ FileTree.longestPath := by
    rw [← List.append_nil longPath, size_text_longPath]
    decide
  have hlong : FileTree.longestPath < (checkoutEntry longPath).text.utf8ByteSize := by
    rw [checkoutEntry, size_text_longPath]
    decide
  exact ⟨exists?_fileAlone (by simp [longPath]) hplain hsizes hasZero_longPath hsize,
    node?_fileAlone_git (notMem_longPath (by decide)),
    repositoryRoot_runFrom hplain hasZero_longPath hlong⟩

end Surroundings

end Noughts
