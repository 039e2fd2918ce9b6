import Mathlib.Data.List.Induction
import Noughts.Proofs.Files
import Noughts.RealPath

/-!
# Resolved paths

What resolving a path comes to.

* It fails for two reasons only, a zero character and a loop of links (`resolve_error_cases`).
* What it comes to starts at the root, and has no pairs of dots in it (`resolve_eq_ok`).
* Where there are no links it is arithmetic on names: the path is put behind the working directory,
  and each pair of dots takes one name back (`Linkless.resolve_eq`).
-/

set_option autoImplicit false

namespace Noughts

/-! ## Names from the root -/

namespace Path

variable {workingDirectory : Location}

theorem settle_concat (names : List String) (name : String) :
    settle (names ++ [name]) = if name = ".." then (settle names).dropLast
      else settle names ++ [name] := by
  rw [settle, List.foldl_append, ← settle, List.foldl_cons, List.foldl_nil]

/-- Names without pairs of dots are settled. -/
theorem settle_eq_self {names : List String} (h : ".." ∉ names) : settle names = names := by
  induction names using List.reverseRecOn with
  | nil => rfl
  | append_singleton rest name ih =>
    obtain ⟨hrest, hname⟩ := not_or.mp (List.mem_append.not.mp h)
    rw [settle_concat, ih hrest, if_neg fun heq => hname (List.mem_singleton.mpr heq.symm)]

theorem notMem_settle (names : List String) : ".." ∉ settle names := by
  induction names using List.reverseRecOn with
  | nil => simp [settle]
  | append_singleton rest name ih =>
    rw [settle_concat]
    split_ifs with hname
    · exact fun hmem => ih ((List.dropLast_sublist _).mem hmem)
    · simpa [ih] using Ne.symm hname

/-- Settling makes up no names. -/
theorem settle_subset (names : List String) : settle names ⊆ names := by
  induction names using List.reverseRecOn with
  | nil => simp [settle]
  | append_singleton rest name ih =>
    rw [settle_concat]
    split_ifs with hname
    · exact fun _ hmem => List.mem_append_left _ (ih ((List.dropLast_sublist _).mem hmem))
    · exact List.append_subset.mpr ⟨fun _ hmem => List.mem_append_left _ (ih hmem), by simp⟩

theorem notMem_absoluteNames (workingDirectory : Location) (p : Path) :
    ".." ∉ p.absoluteNames workingDirectory := by
  rw [absoluteNames]
  split <;> exact notMem_settle _

/-- Names that follow are settled behind those before them. -/
theorem absoluteNames_append (workingDirectory : Location) (p : Path) (rest : List String) :
    (⟨p.anchor, p.names ++ rest⟩ : Path).absoluteNames workingDirectory
      = rest.foldl (fun done name => if name = ".." then done.dropLast else done ++ [name])
          (p.absoluteNames workingDirectory) := by
  rw [absoluteNames, absoluteNames]
  dsimp only
  split
  · rw [← List.append_assoc, settle, List.foldl_append, ← settle]
  · rw [settle, List.foldl_append, ← settle]

/-- One name more, or one pair of dots. -/
theorem absoluteNames_concat (workingDirectory : Location) (p : Path) (name : String) :
    (⟨p.anchor, p.names ++ [name]⟩ : Path).absoluteNames workingDirectory
      = if name = ".." then (p.absoluteNames workingDirectory).dropLast
        else p.absoluteNames workingDirectory ++ [name] := by
  rw [absoluteNames_append, List.foldl_cons, List.foldl_nil]

/-- A step back can be taken: there are no pairs of dots in the path, unless it starts at the working
directory. -/
def CanStepBack (p : Path) : Prop := p.anchor ≠ .here → ".." ∉ p.names

/-- **A step back leads to the directory above.** -/
theorem CanStepBack.absoluteNames_back {p : Path} (h : p.CanStepBack)
    (workingDirectory : Location) :
    p.back.absoluteNames workingDirectory = (p.absoluteNames workingDirectory).dropLast := by
  obtain ⟨anchor, names⟩ := p
  rw [back]
  split_ifs with hdots
  · obtain ⟨rfl, -⟩ := hdots
    rw [absoluteNames_concat workingDirectory ⟨.here, names⟩, if_pos rfl]
  · rcases List.eq_nil_or_concat' names with rfl | ⟨front, last, rfl⟩
    · have hanchor : anchor ≠ .here := fun heq => hdots ⟨heq, .inl rfl⟩
      cases anchor with
      | here => exact absurd rfl hanchor
      | root => rfl
      | doubleRoot => rfl
    · have hlast : last ≠ ".." := by
        rintro rfl
        by_cases hanchor : anchor = .here
        · exact hdots ⟨hanchor, .inr (by simp)⟩
        · exact h hanchor (by simp)
      rw [absoluteNames_concat workingDirectory ⟨anchor, front⟩, if_neg hlast, List.dropLast_concat,
        parent]
      simp

theorem hasZero_cons (anchor : Anchor) (name : String) (rest : List String) :
    (⟨anchor, name :: rest⟩ : Path).hasZero
      = (name.toList.contains '\x00' || (⟨anchor, rest⟩ : Path).hasZero) :=
  List.any_cons

theorem hasZero_concat (p : Path) (name : String) :
    (⟨p.anchor, p.names ++ [name]⟩ : Path).hasZero
      = (p.hasZero || name.toList.contains '\x00') := by
  simp [hasZero]

theorem hasZero_back {p : Path} (h : p.hasZero = false) : p.back.hasZero = false := by
  rw [hasZero, List.any_eq_false] at h ⊢
  rw [back]
  split_ifs
  · refine List.forall_mem_append.mpr ⟨h, ?_⟩
    simp
  · exact fun name hname => h name ((List.dropLast_sublist _).mem hname)

theorem CanStepBack.back {p : Path} (h : p.CanStepBack) : p.back.CanStepBack := by
  rw [Path.back]
  split_ifs
  · exact fun hanchor => absurd rfl hanchor
  · exact fun hanchor hmem => h hanchor ((List.dropLast_sublist _).mem hmem)

theorem CanStepBack.concat {p : Path} (h : p.CanStepBack) {name : String} (hname : name ≠ "..") :
    (⟨p.anchor, p.names ++ [name]⟩ : Path).CanStepBack := by
  intro hanchor hmem
  rcases List.mem_append.mp hmem with hmem | hmem
  · exact h hanchor hmem
  · exact hname (List.mem_singleton.mp hmem).symm

/-- A path has no zero character from the root if neither it nor the working directory has. -/
theorem hasZero_absolute {p : Path} (hplain : (⟨.root, workingDirectory⟩ : Path).hasZero = false)
    (h : p.hasZero = false) : (p.absolute workingDirectory).hasZero = false := by
  rw [hasZero, List.any_eq_false] at hplain h ⊢
  intro name hname
  rw [absolute, absoluteNames] at hname
  split at hname
  · rcases List.mem_append.mp (settle_subset _ hname) with hname | hname
    · exact hplain name hname
    · exact h name hname
  · exact h name (settle_subset _ hname)

end Path

namespace FileTree

variable {t : FileTree} {workingDirectory : Location} {p q : Path}

/-! ## What resolving comes to -/

theorem refuseLoop_error_cases {e : FileError}
    (h : t.refuseLoop workingDirectory p = .error e) :
    e = .zeroCharacter ∨ ∃ q, e = .linkLoop q := by
  rw [refuseLoop] at h
  split at h
  · cases h
    exact .inl rfl
  · cases h
    exact .inr ⟨_, rfl⟩
  · cases h

theorem eq_of_refuseLoop (h : t.refuseLoop workingDirectory p = .ok q) : q = p := by
  rw [refuseLoop] at h
  split at h <;> cases h
  rfl

/-- Gone along names, a path is stopped by a zero character or by a loop. -/
theorem expandNames_error_cases {enter : Path → Path → Except FileError Path}
    (henter : ∀ link target e, enter link target = .error e →
      e = .zeroCharacter ∨ ∃ q, e = .linkLoop q)
    {done : Path} {names : List String} {e : FileError}
    (h : t.expandNames workingDirectory enter done names = .error e) :
    e = .zeroCharacter ∨ ∃ q, e = .linkLoop q := by
  induction names generalizing done with
  | nil => cases h
  | cons name rest ih =>
    rw [expandNames] at h
    dsimp only at h
    split_ifs at h
    · exact ih h
    · cases h
      exact .inl rfl
    · split at h
      · exact ih h
      · split at h
        · next e' hentered =>
          cases h
          obtain rfl | ⟨q, rfl⟩ := henter _ _ _ hentered
          · exact .inl rfl
          · exact .inr ⟨_, rfl⟩
        · exact ih h

theorem expand_error_cases {depth : Nat} {entered : List Path} {done : Path} {names : List String}
    {e : FileError} (h : t.expand workingDirectory depth entered done names = .error e) :
    e = .zeroCharacter ∨ ∃ q, e = .linkLoop q := by
  induction depth generalizing entered done names e with
  | zero =>
    refine expandNames_error_cases (fun link target e hentered => ?_) h
    cases hentered
    exact .inr ⟨_, rfl⟩
  | succ depth ih =>
    refine expandNames_error_cases (fun link target e hentered => ?_) h
    split_ifs at hentered
    · cases hentered
      exact .inr ⟨_, rfl⟩
    · exact ih hentered

/-- However deep it is in links, a path is gone along in one way. -/
theorem exists_expand_eq (t : FileTree) (workingDirectory : Location) (depth : Nat)
    (entered : List Path) :
    ∃ enter, t.expand workingDirectory depth entered = t.expandNames workingDirectory enter := by
  cases depth <;> exact ⟨_, rfl⟩

/-- **Resolving fails for two reasons only.** -/
theorem resolve_error_cases {e : FileError} (h : t.resolve workingDirectory p = .error e) :
    e = .zeroCharacter ∨ ∃ q, e = .linkLoop q := by
  rw [resolve] at h
  split at h
  · exact refuseLoop_error_cases h
  · exact refuseLoop_error_cases h
  · next hexpand =>
    cases h
    exact expand_error_cases hexpand

/-- **A resolved path starts at the root**, and each of its names leads down from there. -/
theorem resolve_eq_ok (h : t.resolve workingDirectory p = .ok q) :
    q.anchor = .root ∧ ".." ∉ q.names := by
  have habsolute : ∃ q' : Path, q = q'.absolute workingDirectory := by
    rw [resolve] at h
    split at h
    · exact ⟨_, eq_of_refuseLoop h⟩
    · exact ⟨_, eq_of_refuseLoop h⟩
    · cases h
  obtain ⟨q', rfl⟩ := habsolute
  exact ⟨rfl, Path.notMem_absoluteNames workingDirectory q'⟩

/-! ## Where there are no links -/

/-- There are no links in the tree. -/
def Linkless (t : FileTree) : Prop := ∀ l target, t.node? l ≠ some (.link target)

theorem linkless_of_entries (h : ∀ e ∈ t.entries, ∀ target, e.2 ≠ .link target) : t.Linkless := by
  intro l target hlink
  rw [node?] at hlink
  split_ifs at hlink
  · cases hlink
  · obtain ⟨e, he, hnode⟩ := Option.map_eq_some_iff.mp hlink
    exact h e (List.mem_of_find?_eq_some he) target hnode

namespace Linkless

theorem walk_ne_atLink (h : t.Linkless) (here : Location) (names : List String) (above : Location)
    (target : Path) (rest : List String) :
    t.walk here names ≠ .ok (.atLink above target rest) := by
  induction names generalizing here with
  | nil => simp [walk]
  | cons name names ih =>
    rw [walk]
    split
    · simp
    · split_ifs
      · exact ih _
      · simp
      · split
        · next hlink => exact absurd hlink (h _ _)
        · exact ih _
    · simp
    · simp

theorem linkAt?_eq_none (h : t.Linkless) (workingDirectory : Location) (p : Path) :
    t.linkAt? workingDirectory p = none := by
  rw [linkAt?]
  split_ifs
  · rfl
  · split
    · next above target rest hstep =>
      rw [lastStep] at hstep
      split at hstep
      · cases hstep
      · split at hstep
        · cases hstep
        · exact absurd hstep (h.walk_ne_atLink _ _ _ _ _)
    · rfl

theorem follow_ne_tooManyLinks (h : t.Linkless) (links : Nat) (here : Location)
    (names : List String) : t.follow links here names ≠ .error .tooManyLinks := by
  intro hfollow
  have hwalk : t.walk here names = .error .tooManyLinks := by
    match hwalk : t.walk here names with
    | .error problem =>
      cases (follow_of_walk_error hwalk links).symm.trans hfollow
      rfl
    | .ok (.arrived l) => cases (follow_of_arrived hwalk links).symm.trans hfollow
    | .ok (.atLink above target rest) => exact absurd hwalk (h.walk_ne_atLink _ _ _ _ _)
  obtain (hcase | hcase) | hcase | hcase := walk_error_cases hwalk <;> cases hcase

theorem refuseLoop_eq (h : t.Linkless) (hzero : p.hasZero = false) :
    t.refuseLoop workingDirectory p = .ok p := by
  rw [refuseLoop]
  split
  · next hlocate =>
    obtain ⟨-, hzero'⟩ | ⟨-, problem, hcase, -⟩ := locate_error_cases hlocate
    · exact absurd hzero' (Bool.eq_false_iff.mp hzero)
    · cases hcase
  · next hlocate =>
    obtain ⟨hcase, -⟩ | ⟨-, problem, hcase, ⟨rfl, -⟩ | ⟨-, hfollow | rfl⟩⟩ :=
      locate_error_cases hlocate
    · cases hcase
    · cases hcase
    · cases hcase
      exact absurd hfollow (h.follow_ne_tooManyLinks _ _ _)
    · cases hcase
  · rfl

/-- Going along names, only a zero character can be met.  Otherwise it makes no difference to where
the names lead from the root. -/
theorem expandNames_eq (h : t.Linkless) (workingDirectory : Location)
    (enter : Path → Path → Except FileError Path) {done : Path} (hstep : done.CanStepBack)
    (hdone : done.hasZero = false) (names : List String) :
    if (⟨done.anchor, names⟩ : Path).hasZero then
      t.expandNames workingDirectory enter done names = .error .zeroCharacter
    else
      ∃ q, t.expandNames workingDirectory enter done names = .ok q
        ∧ q.absoluteNames workingDirectory
          = (⟨done.anchor, done.names ++ names⟩ : Path).absoluteNames workingDirectory := by
  induction names generalizing done with
  | nil =>
    rw [if_neg (by simp [Path.hasZero])]
    exact ⟨done, rfl, by rw [List.append_nil]⟩
  | cons name rest ih =>
    rw [Path.absoluteNames_append, List.foldl_cons, Path.hasZero_cons]
    by_cases hback : name = ".."
    · subst hback
      have hdots : "..".toList.contains '\x00' = false := by decide
      have hanchor : (⟨done.back.anchor, rest⟩ : Path).hasZero
          = (⟨done.anchor, rest⟩ : Path).hasZero := rfl
      rw [hdots, Bool.false_or, ← hanchor, expandNames, if_pos rfl, if_pos rfl,
        ← hstep.absoluteNames_back, ← Path.absoluteNames_append]
      exact ih hstep.back (Path.hasZero_back hdone)
    · have hnext := Path.hasZero_concat done name
      have hnames : done.absoluteNames workingDirectory ++ [name]
          = (⟨done.anchor, done.names ++ [name]⟩ : Path).absoluteNames workingDirectory := by
        rw [Path.absoluteNames_concat, if_neg hback]
      rw [hdone, Bool.false_or] at hnext
      rw [expandNames, if_neg hback, if_neg hback]
      dsimp only
      rw [hnext]
      cases hname : name.toList.contains '\x00' with
      | true => rfl
      | false =>
        rw [Bool.false_or, if_neg Bool.false_ne_true, h.linkAt?_eq_none, hnames,
          ← Path.absoluteNames_append]
        exact ih (hstep.concat hback) (hnext.trans hname)

/-- **Without links, resolving is arithmetic on names.** -/
theorem resolve_eq (h : t.Linkless) (hplain : (⟨.root, workingDirectory⟩ : Path).hasZero = false)
    (p : Path) : t.resolve workingDirectory p
      = if p.hasZero then .error .zeroCharacter else .ok (p.absolute workingDirectory) := by
  have hstart : (p.start {}).CanStepBack ∧ (p.start {}).hasZero = false
      ∧ (⟨(p.start {}).anchor, (p.start {}).names ++ p.names⟩ : Path).absoluteNames
        workingDirectory = p.absoluteNames workingDirectory := by
    obtain ⟨anchor, names⟩ := p
    cases anchor with
    | here => exact ⟨fun hanchor => absurd rfl hanchor, rfl, rfl⟩
    | root => exact ⟨fun _ => by simp [Path.start], rfl, rfl⟩
    | doubleRoot => exact ⟨fun _ => by simp [Path.start], rfl, rfl⟩
  obtain ⟨hstep, hzero, hnames⟩ := hstart
  obtain ⟨enter, henter⟩ := exists_expand_eq t workingDirectory deepestLink []
  have hexpand := h.expandNames_eq workingDirectory enter hstep hzero p.names
  have hanchor : (⟨(p.start {}).anchor, p.names⟩ : Path).hasZero = p.hasZero := rfl
  rw [hnames, hanchor] at hexpand
  rw [resolve, henter]
  by_cases hp : p.hasZero = true
  · rw [if_pos hp] at hexpand ⊢
    rw [hexpand]
  · rw [if_neg hp] at hexpand ⊢
    obtain ⟨q, hq, habsolute⟩ := hexpand
    have hresolved : q.absolute workingDirectory = p.absolute workingDirectory := by
      rw [Path.absolute, Path.absolute, habsolute]
    rw [hq]
    dsimp only
    rw [hresolved]
    exact h.refuseLoop_eq (Path.hasZero_absolute hplain (Bool.eq_false_iff.mpr hp))

end Linkless

end FileTree

end Noughts
