import Mathlib.Algebra.GroupWithZero.Nat
import Mathlib.Data.String.Basic
import Noughts.Files

/-!
# Files that are written and read

What the operations on a tree of files have to do with one another.

* A text without slashes is one name, so that it leads one step down from any path
  (`Path.child_of_name`).
* It can be told whether a path leads anywhere, unless the way is barred (`exists?_eq_error_iff`).
  What a path leads to can be read unless it is a directory or locked (`eq_of_read_error`), and what
  can be read is there (`exists?_of_read`).
* A path is followed part by part; what the first part uses up of the links is gone for the second
  (`follow_append`).
* Following a path depends on what stands at the locations that are met (`follow_eq_of_meets`).  If
  there are no links, these are the ones that lead there (`prefix_of_meets`).
* What is written to a file is what is then read from it (`read_of_write`).  A new file stands where
  there was neither a directory nor a link, so that it does not stand on the way to anything, and
  every path that led to a place before still leads there (`follow_place`).
* Whether a file can be written does not depend on what is written (`Writable`).
-/

set_option autoImplicit false

namespace Noughts

namespace Path

open String

/-- Splitting at slashes where none is left.  `front` has been passed. -/
theorem splitOnAux_of_no_slash (front rest : List Char) (h : '/' ∉ rest) :
    splitOnAux (ofList (front ++ rest)) "/" 0 ⟨utf8Len front⟩ 0 [] = [ofList (front ++ rest)] := by
  induction rest generalizing front with
  | nil =>
    have hend : Pos.Raw.atEnd (ofList (front ++ [])) ⟨utf8Len front⟩ = true := by simp
    rw [splitOnAux, if_pos hend]
    simpa using extract_of_valid [] front []
  | cons c rest ih =>
    obtain ⟨hc, hrest⟩ := not_or.mp (List.mem_cons.not.mp h)
    have hend : ¬Pos.Raw.atEnd (ofList (front ++ c :: rest)) ⟨utf8Len front⟩ = true := by
      have hpos := c.utf8Size_pos
      simp only [atEnd_iff, rawEndPos_ofList, utf8Len_append, utf8Len_cons, Pos.Raw.mk_le_mk]
      omega
    have hget : Pos.Raw.get (ofList (front ++ c :: rest)) ⟨utf8Len front⟩ = c :=
      get_of_valid front (c :: rest)
    have hslash : Pos.Raw.get "/" 0 = '/' := by decide
    have hne : ¬(c == '/') = true := by simpa using Ne.symm hc
    have hnext : Pos.Raw.next (ofList (front ++ c :: rest)) ⟨utf8Len front⟩
        = ⟨utf8Len front + c.utf8Size⟩ := next_of_valid front c rest
    have hback : Pos.Raw.unoffsetBy ⟨utf8Len front⟩ 0 = ⟨utf8Len front⟩ := rfl
    have hlater := ih (front ++ [c]) hrest
    simp only [utf8Len_append, utf8Len_cons, utf8Len_nil, Nat.zero_add, List.append_assoc,
      List.cons_append, List.nil_append] at hlater
    rw [splitOnAux, if_neg hend, hget, hslash, if_neg hne, hback, hnext]
    exact hlater

/-- A text can be a name: it is not empty, not a single dot, and has no slashes. -/
def IsName (s : String) : Prop := s ≠ "" ∧ s ≠ "." ∧ '/' ∉ s.toList

instance (s : String) : Decidable (IsName s) := inferInstanceAs (Decidable (_ ∧ _ ∧ _))

theorem ofString_of_name {s : String} (h : IsName s) : ofString s = ⟨.here, [s]⟩ := by
  obtain ⟨hempty, hdot, hslash⟩ := h
  have hsplit : s.splitOn "/" = [s] := by
    have hwhole := splitOnAux_of_no_slash [] s.toList hslash
    rw [List.nil_append, ofList_toList] at hwhole
    exact hwhole
  have hanchor : anchorOf s.toList = .here := by
    match hchars : s.toList with
    | [] => rfl
    | c :: rest =>
      have hc : c ≠ '/' := fun hc => hslash (by simp [hchars, hc])
      rw [anchorOf] <;> exact fun _ heq => hc (List.cons.inj heq).1
  rw [ofString, hsplit, hanchor]
  simp [hempty, hdot]

/-- A name leads one step down. -/
theorem child_of_name {s : String} (h : IsName s) (p : Path) :
    p.child s = ⟨p.anchor, p.names ++ [s]⟩ := by
  rw [child, ofString_of_name h]
  rfl

/-- Putting a name behind a path adds no zero characters if there is none in it. -/
theorem hasZero_child {s : String} (h : IsName s) (hzero : '\x00' ∉ s.toList) (p : Path) :
    (p.child s).hasZero = p.hasZero := by
  rw [child_of_name h, hasZero, hasZero, List.any_append]
  simp [hzero]

/-- The size of a path from the root: a slash before every name, and one slash for the root
itself. -/
theorem size_text_root (names : List String) :
    (⟨.root, names⟩ : Path).text.utf8ByteSize
      = max 1 (names.map fun name => name.utf8ByteSize + 1).sum := by
  have hjoined (name : String) (rest : List String) :
      ("/".intercalate (name :: rest)).utf8ByteSize + 1
        = ((name :: rest).map fun name => name.utf8ByteSize + 1).sum := by
    induction rest generalizing name with
    | nil => simp
    | cons next rest ih =>
      have hslash : "/".utf8ByteSize = 1 := rfl
      rw [intercalate_cons_cons, utf8ByteSize_append, utf8ByteSize_append, hslash, List.map_cons,
        List.sum_cons, ← ih next]
      omega
  have hroot : Anchor.root.text.utf8ByteSize = 1 := rfl
  rw [text, if_neg (by simp), utf8ByteSize_append, hroot]
  cases names with
  | nil => rfl
  | cons name rest =>
    rw [← hjoined name rest]
    show 1 + ("/".intercalate (name :: rest)).utf8ByteSize = _
    omega

end Path

namespace FileTree

variable {t : FileTree} {workingDirectory : Location} {p : Path}

/-! ## Why a path leads nowhere -/

/-- A walk that fails finds nothing, or it is barred from looking. -/
theorem walk_error_cases {here : Location} {names : List String} {problem : FileProblem}
    (h : t.walk here names = .error problem) :
    (problem = .notFound ∨ problem = .notDirectory)
      ∨ problem = .denied ∨ problem = .nameTooLong := by
  induction names generalizing here with
  | nil => cases h
  | cons name rest ih =>
    rw [walk] at h
    split at h
    · cases h
      exact .inl (.inl rfl)
    · split_ifs at h
      · exact ih h
      · cases h
        exact .inr (.inr rfl)
      · split at h
        · cases h
        · exact ih h
    · cases h
      exact .inr (.inl rfl)
    · cases h
      exact .inl (.inr rfl)

theorem follow_of_walk_error {here : Location} {names : List String} {problem : FileProblem}
    (h : t.walk here names = .error problem) (links : Nat) :
    t.follow links here names = .error problem := by
  cases links <;> rw [follow, h]

theorem follow_of_arrived {here l : Location} {names : List String}
    (h : t.walk here names = .ok (.arrived l)) (links : Nat) :
    t.follow links here names = .ok (l, links) := by
  cases links <;> rw [follow, h]

/-- Up to the first link, names are followed as they are walked along. -/
theorem follow_of_walk_eq {here here' : Location} {names names' : List String}
    (h : t.walk here names = t.walk here' names') (links : Nat) :
    t.follow links here names = t.follow links here' names' := by
  cases links <;> rw [follow, follow, h]

theorem follow_error_cases {links : Nat} {here : Location} {names : List String}
    {problem : FileProblem} (h : t.follow links here names = .error problem) :
    problem.meansAbsent = true ∨ problem = .denied ∨ problem = .nameTooLong := by
  fun_induction t.follow links here names with
  | case1 links here names e hwalk =>
    cases h
    refine (walk_error_cases hwalk).imp_left ?_
    rintro (rfl | rfl) <;> rfl
  | case2 => cases h
  -- no links are left
  | case3 =>
    cases h
    exact .inl rfl
  | case4 _ _ _ _ _ _ _ ih => exact ih h

theorem locate_eq_ok_iff {l : Location} :
    t.locate workingDirectory p = .ok l
      ↔ p.hasZero = false ∧ p.text.utf8ByteSize ≤ longestPath
        ∧ ∃ left, t.follow mostLinks (origin workingDirectory p) p.names = .ok (l, left)
          ∧ (t.node? l).isSome := by
  rw [locate, checked]
  split_ifs with hzero hlong
  · simp [hzero]
  · simp [Nat.not_le.mpr hlong]
  · rw [Bool.not_eq_true] at hzero
    rw [Nat.not_lt] at hlong
    cases t.follow mostLinks (origin workingDirectory p) p.names with
    | error problem => simp [Except.mapError]
    | ok led =>
      by_cases hthere : (t.node? led.1).isSome
      · simp only [hthere, if_true, Except.mapError, hzero, hlong, Except.ok.injEq, true_and]
        constructor
        · rintro rfl
          exact ⟨led.2, rfl, hthere⟩
        · rintro ⟨left, rfl, -⟩
          rfl
      · simp only [hthere, Bool.false_eq_true, if_false, Except.mapError, reduceCtorEq, hzero,
          hlong, Except.ok.injEq, true_and, false_iff]
        rintro ⟨left, rfl, hsome⟩
        exact hthere hsome

/-- Why a path is not located: it could lead nowhere in any tree, or following it has a problem, or
ends where nothing stands. -/
theorem locate_error_cases {e : FileError} (h : t.locate workingDirectory p = .error e) :
    (e = .zeroCharacter ∧ p.hasZero = true)
      ∨ p.hasZero = false ∧ ∃ problem, e = .problem problem p
        ∧ (problem = .nameTooLong ∧ longestPath < p.text.utf8ByteSize
          ∨ p.text.utf8ByteSize ≤ longestPath
            ∧ (t.follow mostLinks (origin workingDirectory p) p.names = .error problem
              ∨ problem = .notFound)) := by
  rw [locate, checked] at h
  split_ifs at h with hzero hlong
  · cases h
    exact .inl ⟨rfl, hzero⟩
  · cases h
    exact .inr ⟨Bool.eq_false_iff.mpr hzero, _, rfl, .inl ⟨rfl, hlong⟩⟩
  · refine .inr ⟨Bool.eq_false_iff.mpr hzero, ?_⟩
    have hshort := Nat.not_lt.mp hlong
    split at h
    · next hfollow =>
      cases h
      exact ⟨_, rfl, .inr ⟨hshort, .inl hfollow⟩⟩
    · split_ifs at h
      · cases h
      · cases h
        exact ⟨_, rfl, .inr ⟨hshort, .inr rfl⟩⟩

theorem exists?_eq_true_iff :
    t.exists? workingDirectory p = .ok true ↔ ∃ l, t.locate workingDirectory p = .ok l := by
  rw [exists?]
  split
  · next l hlocate => simp [hlocate]
  · next hlocate => split_ifs <;> simp [hlocate]

/-- Why it cannot be told whether a path leads anywhere. -/
inductive Barred (t : FileTree) (workingDirectory : Location) (p : Path) : FileProblem → Prop
  /-- There is too much of it. -/
  | tooLong (hzero : p.hasZero = false) (hsize : longestPath < p.text.utf8ByteSize) :
      Barred t workingDirectory p .nameTooLong
  /-- A directory on the way may not be searched, or a name is too long. -/
  | onTheWay {problem : FileProblem} (hzero : p.hasZero = false)
      (hsize : p.text.utf8ByteSize ≤ longestPath)
      (hfollow : t.follow mostLinks (origin workingDirectory p) p.names = .error problem)
      (hproblem : problem = .denied ∨ problem = .nameTooLong) :
      Barred t workingDirectory p problem

theorem Barred.locate_eq {problem : FileProblem} (h : Barred t workingDirectory p problem) :
    t.locate workingDirectory p = .error (.problem problem p) := by
  cases h with
  | tooLong hzero hsize =>
    rw [locate, checked, if_neg (Bool.eq_false_iff.mp hzero), if_pos hsize]
  | onTheWay hzero hsize hfollow _ =>
    rw [locate, checked, if_neg (Bool.eq_false_iff.mp hzero), if_neg (Nat.not_lt.mpr hsize),
      hfollow]
    rfl

theorem Barred.problem_cases {problem : FileProblem} (h : Barred t workingDirectory p problem) :
    problem = .denied ∨ problem = .nameTooLong := by
  cases h with
  | tooLong => exact .inr rfl
  | onTheWay _ _ _ hproblem => exact hproblem

/-- **It cannot be told** just where the way is barred. -/
theorem exists?_eq_error_iff {e : FileError} :
    t.exists? workingDirectory p = .error e
      ↔ ∃ problem, Barred t workingDirectory p problem ∧ e = .problem problem p := by
  constructor
  · intro h
    rw [exists?] at h
    split at h
    · cases h
    · next e' hlocate =>
      split_ifs at h with habsent
      cases h
      obtain ⟨rfl, -⟩ | ⟨hzero, problem, rfl, hcause⟩ := locate_error_cases hlocate
      · exact absurd rfl habsent
      refine ⟨problem, ?_, rfl⟩
      obtain ⟨rfl, hlong⟩ | ⟨hshort, hfollow | rfl⟩ := hcause
      · exact .tooLong hzero hlong
      · exact .onTheWay hzero hshort hfollow ((follow_error_cases hfollow).resolve_left habsent)
      · exact absurd rfl habsent
  · rintro ⟨problem, hbarred, rfl⟩
    rw [exists?, hbarred.locate_eq]
    rcases hbarred.problem_cases with rfl | rfl <;> rfl

/-- A file that is not read has a problem, or its path has a zero character. -/
theorem read_error_cases {e : FileError} (h : t.read workingDirectory p = .error e) :
    e = .zeroCharacter ∨ ∃ problem, e = .problem problem p := by
  rw [read] at h
  split at h
  · next hlocate =>
    cases h
    obtain ⟨rfl, -⟩ | ⟨-, problem, rfl, -⟩ := locate_error_cases hlocate
    · exact .inl rfl
    · exact .inr ⟨_, rfl⟩
  · split at h <;> cases h <;> exact .inr ⟨_, rfl⟩

/-- A path that leads somewhere can be read, unless it leads to a directory or to what may not be
read. -/
theorem eq_of_read_error {e : FileError} (hexists : t.exists? workingDirectory p = .ok true)
    (h : t.read workingDirectory p = .error e) :
    e = .problem .isDirectory p ∨ e = .problem .denied p := by
  obtain ⟨l, hlocate⟩ := exists?_eq_true_iff.mp hexists
  rw [read, hlocate] at h
  dsimp only at h
  split at h <;> cases h
  · exact .inl rfl
  · exact .inr rfl

/-- What can be read is there. -/
theorem exists?_of_read {bytes : List UInt8} (h : t.read workingDirectory p = .ok bytes) :
    t.exists? workingDirectory p = .ok true := by
  rw [read] at h
  split at h
  · cases h
  · next l hlocate => exact exists?_eq_true_iff.mpr ⟨l, hlocate⟩

/-! ## Parts of a path -/

/-- A walk goes to the end of the first part of the names, and on from there. -/
theorem walk_append (t : FileTree) (here : Location) (names rest : List String) :
    t.walk here (names ++ rest) =
      match t.walk here names with
      | .ok (.arrived above) => t.walk above rest
      | .ok (.atLink above target behind) => .ok (.atLink above target (behind ++ rest))
      | .error e => .error e := by
  induction names generalizing here with
  | nil => rfl
  | cons name names ih =>
    rw [List.cons_append, walk, walk]
    split
    · rfl
    · split_ifs
      · exact ih _
      · rfl
      · split
        · rfl
        · exact ih _
    · rfl
    · rfl

/-- **A path is followed to the end of its first part**, and from there on with the links that are
left. -/
theorem follow_append (t : FileTree) (links : Nat) (here : Location) (names rest : List String) :
    t.follow links here (names ++ rest) =
      match t.follow links here names with
      | .ok (above, left) => t.follow left above rest
      | .error e => .error e := by
  fun_induction t.follow links here names with
  | case1 links here names e hwalk =>
    exact follow_of_walk_error (by rw [walk_append, hwalk]) links
  | case2 links here names above hwalk =>
    exact follow_of_walk_eq (by rw [walk_append, hwalk]) links
  | case3 here names above target behind hwalk =>
    rw [follow, walk_append, hwalk]
  | case4 here names above target behind hwalk links ih =>
    rw [follow, walk_append, hwalk]
    dsimp only
    rw [← List.append_assoc]
    exact ih

/-- It leads somewhere if both parts do, the second from where the first has led. -/
theorem follow_append_eq_ok_iff {links : Nat} {here : Location} {names rest : List String}
    {led : Location × Nat} :
    t.follow links here (names ++ rest) = .ok led
      ↔ ∃ above left, t.follow links here names = .ok (above, left)
        ∧ t.follow left above rest = .ok led := by
  rw [follow_append]
  cases t.follow links here names with
  | error problem => simp
  | ok between => simp [Prod.ext_iff]

/-! ## What following a path depends on -/

@[simp] theorem follow_nil (t : FileTree) (links : Nat) (here : Location) :
    t.follow links here [] = .ok (here, links) :=
  follow_of_arrived rfl links

/-- A step along one name: back, down, or on with a link's target. -/
theorem follow_cons (t : FileTree) (links : Nat) (here : Location) (name : String)
    (rest : List String) :
    t.follow links here (name :: rest) =
      match t.node? here with
      | none => .error .notFound
      | some .directory =>
        if name = ".." then t.follow links here.dropLast rest
        else if longestName < name.utf8ByteSize then .error .nameTooLong
        else
          match t.node? (here ++ [name]) with
          | some (.link target) =>
            match links with
            | 0 => .error .tooManyLinks
            | links + 1 => t.follow links (origin here target) (target.names ++ rest)
          | _ => t.follow links (here ++ [name]) rest
      | some .lockedDirectory => .error .denied
      | some _ => .error .notDirectory := by
  rw [follow.eq_def]
  dsimp only
  rw [walk]
  match t.node? here with
  | some .directory =>
    dsimp only
    split_ifs
    · rw [follow.eq_def]
    · rfl
    · rcases t.node? (here ++ [name]) with _ | _ | _ | _ | _ | target
      case some.link => cases links <;> rfl
      all_goals
        dsimp only
        rw [follow.eq_def]
  | none => rfl
  | some (.file _) => rfl
  | some .lockedFile => rfl
  | some .lockedDirectory => rfl
  | some (.link _) => rfl

/-- **Plain names lead down from directory to directory**, whatever stands at the end. -/
theorem walk_of_directories {here : Location} {names : List String} (hplain : ".." ∉ names)
    (hsizes : ∀ name ∈ names, name.utf8ByteSize ≤ longestName)
    (hlinks : ∀ front, front <+: names → ∀ target, t.node? (here ++ front) ≠ some (.link target))
    (hnodes : ∀ front, front <+: names → front ≠ names →
      t.node? (here ++ front) = some .directory) :
    t.walk here names = .ok (.arrived (here ++ names)) := by
  induction names generalizing here with
  | nil => rw [List.append_nil, walk]
  | cons name rest ih =>
    obtain ⟨hname, hrest⟩ := not_or.mp (List.mem_cons.not.mp hplain)
    obtain ⟨hsize, hsizes⟩ := List.forall_mem_cons.mp hsizes
    have hhere : t.node? here = some .directory := by
      have hfront := hnodes [] List.nil_prefix (List.cons_ne_nil _ _).symm
      rwa [List.append_nil] at hfront
    rw [walk, hhere]
    dsimp only
    rw [if_neg (Ne.symm hname), if_neg (Nat.not_lt.mpr hsize)]
    split
    · next target hlink => exact absurd hlink (hlinks [name] ⟨rest, rfl⟩ target)
    · rw [List.append_cons here name rest]
      refine ih hrest hsizes (fun front hfront target => ?_) fun front hfront hne => ?_
      · rw [← List.append_cons]
        exact hlinks _ (List.cons_prefix_cons.mpr ⟨rfl, hfront⟩) target
      · rw [← List.append_cons]
        exact hnodes _ (List.cons_prefix_cons.mpr ⟨rfl, hfront⟩) (by simpa using hne)

/-- A location is met on following names, with so many links on the way at most: it can make a
difference what stands there. -/
inductive Meets (t : FileTree) : Nat → Location → List String → Location → Prop
  | here (links : Nat) (here : Location) (names : List String) : Meets t links here names here
  | back {links : Nat} {here m : Location} {rest : List String}
      (hnode : t.node? here = some .directory) (h : Meets t links here.dropLast rest m) :
      Meets t links here (".." :: rest) m
  | next {here : Location} {name : String} (links : Nat) (rest : List String)
      (hnode : t.node? here = some .directory) (hname : name ≠ "..") :
      Meets t links here (name :: rest) (here ++ [name])
  | down {links : Nat} {here m : Location} {name : String} {rest : List String}
      (hnode : t.node? here = some .directory) (hname : name ≠ "..")
      (hlink : ∀ target, t.node? (here ++ [name]) ≠ some (.link target))
      (h : Meets t links (here ++ [name]) rest m) : Meets t links here (name :: rest) m
  | through {links : Nat} {here m : Location} {name : String} {rest : List String} {target : Path}
      (hnode : t.node? here = some .directory) (hname : name ≠ "..")
      (hlink : t.node? (here ++ [name]) = some (.link target))
      (h : Meets t links (origin here target) (target.names ++ rest) m) :
      Meets t (links + 1) here (name :: rest) m

/-- **Following depends on what is met**, and on nothing else. -/
theorem follow_eq_of_meets {t' : FileTree} {links : Nat} {here : Location} {names : List String}
    (h : ∀ m, t.Meets links here names m → t.node? m = t'.node? m) :
    t.follow links here names = t'.follow links here names := by
  -- a link puts new names in place of the old ones, and there is one link less to go
  induction links using Nat.strongRecOn generalizing here names with
  | ind links ihLinks =>
    induction names generalizing here with
    | nil => rw [follow_nil, follow_nil]
    | cons name rest ih =>
      rw [follow_cons, follow_cons, ← h here (.here ..)]
      match hnode : t.node? here with
      | some .directory =>
        dsimp only
        by_cases hname : name = ".."
        · subst hname
          rw [if_pos rfl, if_pos rfl]
          exact ih fun m hm => h m (.back hnode hm)
        · rw [if_neg hname, if_neg hname, ← h _ (.next links rest hnode hname)]
          split_ifs
          · rfl
          · split
            · next target hlink =>
              cases links with
              | zero => rfl
              | succ links =>
                exact ihLinks links (Nat.lt_succ_self links) fun m hm =>
                  h m (.through hnode hname hlink hm)
            · next hlink => exact ih fun m hm => h m (.down hnode hname hlink hm)
      | none => rfl
      | some (.file _) => rfl
      | some .lockedFile => rfl
      | some .lockedDirectory => rfl
      | some (.link _) => rfl

/-- Where following ends is met. -/
theorem meets_of_follow {links left : Nat} {here l : Location} {names : List String}
    (h : t.follow links here names = .ok (l, left)) : t.Meets links here names l := by
  induction links using Nat.strongRecOn generalizing here names with
  | ind links ihLinks =>
    induction names generalizing here with
    | nil =>
      cases (t.follow_nil links here).symm.trans h
      exact .here ..
    | cons name rest ih =>
      rw [follow_cons] at h
      split at h
      · cases h
      · next hnode =>
        split_ifs at h with hname
        · subst hname
          exact .back hnode (ih h)
        · split at h
          · next hlink =>
            cases links with
            | zero => cases h
            | succ links =>
              exact .through hnode hname hlink (ihLinks links (Nat.lt_succ_self links) h)
          · next hlink => exact .down hnode hname hlink (ih h)
      · cases h
      · cases h

/-- **A lookup depends on what is met**, whether it has an answer or not. -/
theorem exists?_eq_of_meets {t' : FileTree} (h : ∀ m,
      t.Meets mostLinks (origin workingDirectory p) p.names m → t.node? m = t'.node? m) :
    t.exists? workingDirectory p = t'.exists? workingDirectory p := by
  have hlocate : t.locate workingDirectory p = t'.locate workingDirectory p := by
    rw [locate, locate, ← follow_eq_of_meets h]
    match hfollow : t.follow mostLinks (origin workingDirectory p) p.names with
    | .error problem => rfl
    | .ok (l, left) =>
      dsimp only
      rw [h l (meets_of_follow hfollow)]
  rw [exists?, exists?, hlocate]

/-- **Where no links are met, only what stands on the way is**: the names that lead there are the
first of those that are followed. -/
theorem prefix_of_meets {links : Nat} {here m : Location} {names : List String}
    (hplain : ".." ∉ names)
    (hlinks : ∀ m, m <+: here ++ names → ∀ target, t.node? m ≠ some (.link target))
    (h : t.Meets links here names m) : m <+: here ++ names := by
  induction h with
  | here _ here names => exact List.prefix_append here names
  | back => simp at hplain
  | @next here name _ rest => exact ⟨rest, (List.append_cons here name rest).symm⟩
  | down _ _ _ _ ih =>
    rw [List.append_cons] at hlinks ⊢
    exact ih (fun hmem => hplain (List.mem_cons_of_mem _ hmem)) hlinks
  | @through _ here _ name rest target _ _ hlink =>
    exact absurd hlink (hlinks _ ⟨rest, (List.append_cons here name rest).symm⟩ target)

/-! ## Following a path after a file was written -/

/-- A file can be put there: there is one, or nothing. -/
def Replaceable (t : FileTree) (l : Location) : Prop :=
  t.node? l = none ∨ ∃ content, t.node? l = some (.file content)

/-- What is put there stands there. -/
theorem Replaceable.node?_place {l : Location} (h : t.Replaceable l) (content : List UInt8) :
    (t.place l (.file content)).node? l = some (.file content) := by
  have hroot : l ≠ [] := by
    rintro rfl
    rcases h with h | ⟨_, h⟩ <;> cases h
  rw [FileTree.node?_place, if_neg hroot, if_pos rfl]

/-- Elsewhere, nothing changes. -/
theorem node?_place_of_ne {l other : Location} (h : other ≠ l) (node : FileNode) :
    (t.place l node).node? other = t.node? other := by
  rw [node?_place, if_neg h]
  split_ifs with hroot
  · rw [hroot]
    rfl
  · rfl

/-- **A new file does not bar the way.**  It stands where there was no directory and no link. -/
theorem walk_place {l : Location} (hl : t.Replaceable l) (content : List UInt8) {here : Location}
    {names : List String} {halt : Halt} (h : t.walk here names = .ok halt) :
    (t.place l (.file content)).walk here names = .ok halt := by
  induction names generalizing here with
  | nil => exact h
  | cons name names ih =>
    rw [walk] at h
    split at h
    · cases h
    · next hnode =>
      have hne : here ≠ l := by
        rintro rfl
        rcases hl with hl | ⟨_, hl⟩ <;> cases hnode.symm.trans hl
      rw [walk, node?_place_of_ne hne, hnode]
      dsimp only
      split_ifs at h ⊢
      · exact ih h
      · by_cases heq : here ++ [name] = l
        · rw [heq, hl.node?_place content]
          dsimp only
          rw [heq] at h
          rcases hl with hl | ⟨_, hl⟩ <;> rw [hl] at h <;> exact ih h
        · rw [node?_place_of_ne heq]
          split at h
          · exact h
          · exact ih h
    · cases h
    · cases h

theorem follow_place {l : Location} (hl : t.Replaceable l) (content : List UInt8) {links : Nat}
    {here : Location} {names : List String} {led : Location × Nat}
    (h : t.follow links here names = .ok led) :
    (t.place l (.file content)).follow links here names = .ok led := by
  fun_induction t.follow links here names with
  | case1 => cases h
  | case2 links here names above hwalk =>
    cases h
    exact follow_of_arrived (walk_place hl content hwalk) links
  | case3 => cases h
  | case4 here names above target rest hwalk links ih =>
    rw [follow, walk_place hl content hwalk]
    exact ih h

/-! ## Writing -/

/-- A file that is written has a place, where there was a file or nothing. -/
theorem exists_of_write {content : List UInt8} {t' : FileTree}
    (h : t.write workingDirectory p content = .ok t') :
    p.hasZero = false ∧ p.text.utf8ByteSize ≤ longestPath
      ∧ ∃ l left, t.follow mostLinks (origin workingDirectory p) p.names = .ok (l, left)
        ∧ t.Replaceable l ∧ t' = t.place l (.file content) := by
  rw [write, checked] at h
  split_ifs at h with hzero hlong
  · refine ⟨Bool.eq_false_iff.mpr hzero, Nat.not_lt.mp hlong, ?_⟩
    split at h
    · cases h
    · next l left hfollow =>
      split at h
      · next hnode =>
        cases h
        exact ⟨l, left, hfollow, .inl hnode, rfl⟩
      · next old hnode =>
        cases h
        exact ⟨l, left, hfollow, .inr ⟨old, hnode⟩, rfl⟩
      · cases h
      · cases h

/-- **What is written is what is read.** -/
theorem read_of_write {content : List UInt8} {t' : FileTree}
    (h : t.write workingDirectory p content = .ok t') :
    t'.read workingDirectory p = .ok content := by
  obtain ⟨hzero, hlong, l, left, hfollow, hl, rfl⟩ := exists_of_write h
  have hnode := hl.node?_place content
  have hlocate : (t.place l (.file content)).locate workingDirectory p = .ok l :=
    locate_eq_ok_iff.mpr ⟨hzero, hlong, left, follow_place hl content hfollow, by rw [hnode]; rfl⟩
  rw [read, hlocate]
  dsimp only
  rw [hnode]

/-- A directory that only itself may be missing is made in one step. -/
theorem makeDirectories_of_ensure {t' : FileTree}
    (h : t.ensureDirectory workingDirectory p = .ok t') :
    t.makeDirectories workingDirectory p = (.ok (), t') := by
  rw [makeDirectories, h]

/-- Can a file be written there? -/
def Writable (t : FileTree) (workingDirectory : Location) (p : Path) : Prop :=
  ∃ (content : List UInt8) (t' : FileTree), t.write workingDirectory p content = .ok t'

/-- What is to be written makes no difference. -/
theorem Writable.exists_write (h : t.Writable workingDirectory p) (content : List UInt8) :
    ∃ t' : FileTree, t.write workingDirectory p content = .ok t' := by
  obtain ⟨_, _, hwrite⟩ := h
  obtain ⟨hzero, hlong, l, left, hfollow, hl, -⟩ := exists_of_write hwrite
  refine ⟨t.place l (.file content), ?_⟩
  rw [write, checked, hzero, if_neg Bool.false_ne_true, if_neg (Nat.not_lt.mpr hlong), hfollow]
  dsimp only
  rcases hl with hl | ⟨_, hl⟩ <;> rw [hl] <;> rfl

end FileTree

end Noughts
