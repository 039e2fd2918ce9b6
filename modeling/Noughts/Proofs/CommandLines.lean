import Noughts.CommandLine.Reader

/-!
# What a command line can say

A reading records nothing but what the grammar of its command line admits (`read_admits`): each
value belongs to a switch of the grammar and fits its kind, or it is the operand.

* The first pass names no switches but those of the grammar (`Token.Known`), and neither does an
  argument that is taken apart (`Cluster.Known`).
* Each step of the second pass records what is admitted if it is given known switches, so that the
  whole pass does (`go_admits`).
-/

set_option autoImplicit false

namespace Noughts.CommandLine

variable {g : Grammar}

/-! ## What is admitted -/

/-- Can a switch of this kind be set to the value? -/
def Kind.Admits : Kind → Value → Prop
  | .help, _ => False
  | .flag, v => v = .present
  | .integer, v => v = .blank ∨ ∃ n, v = .integer n
  | .choice among, v => v = .blank ∨ ∃ s ∈ among, v = .text s
  | .text, v => v = .blank ∨ ∃ s, v = .text s

/-- Can the value be recorded under the name? -/
inductive Grammar.Admits (g : Grammar) : String × Value → Prop
  | switch {s : Switch} {v : Value} (hs : s ∈ g.switches) (hv : s.kind.Admits v) :
      g.Admits (s.key, v)
  | operand {name : String} (hname : g.operand = .integer name) (n : Int) :
      g.Admits (name, .integer n)

/-- Everything that is recorded is admitted. -/
def Reading.Admitted (g : Grammar) (r : Reading) : Prop := ∀ e ∈ r.given, g.Admits e

theorem Reading.Admitted.empty : Reading.Admitted g {} := List.forall_mem_nil _

theorem exists_of_bind {ε α β : Type} {x : Except ε α} {f : α → Except ε β} {b : β}
    (h : (x >>= f) = .ok b) : ∃ a, x = .ok a ∧ f a = .ok b := by
  cases x with
  | error e => cases h
  | ok a => exact ⟨a, rfl, h⟩

/-! ## The first pass -/

/-- A switch that the token names is one of the grammar. -/
def Token.Known (g : Grammar) : Token → Prop
  | .switch _ (some hit) => hit.switch ∈ g.switches
  | _ => True

theorem mem_of_mem_table {e : String × Switch} (h : e ∈ g.table) : e.2 ∈ g.switches := by
  obtain ⟨s, hs, he⟩ := List.mem_flatMap.mp h
  obtain ⟨name, -, rfl⟩ := List.mem_map.mp he
  exact hs

theorem mem_of_switch? {name : String} {s : Switch} (h : g.switch? name = some s) :
    s ∈ g.switches := by
  obtain ⟨e, he, rfl⟩ := Option.map_eq_some_iff.mp h
  exact mem_of_mem_table (List.mem_of_find?_eq_some he)

theorem mem_of_completions {argument : String} {hit : Hit} (h : hit ∈ g.completions argument) :
    hit.switch ∈ g.switches := by
  rw [Grammar.completions] at h
  split at h
  · obtain ⟨e, he, rfl⟩ := List.mem_map.mp h
    exact mem_of_mem_table (List.mem_filter.mp he).1
  · obtain ⟨e, he, hhit⟩ := List.mem_filterMap.mp h
    have hswitch : hit.switch = e.2 := by
      split at hhit
      · cases hhit
        rfl
      · split at hhit
        · cases hhit
          rfl
        · cases hhit
    rw [hswitch]
    exact mem_of_mem_table he
  · cases h

theorem known_of_classify {argument : String} {token : Token}
    (h : g.classify argument = .ok token) : token.Known g := by
  rw [Grammar.classify] at h
  split at h
  · split at h
    · next s hs =>
      cases h
      exact mem_of_switch? hs
    · split at h
      · cases h
        trivial
      · dsimp only at h
        split at h
        · next s hs =>
          cases h
          exact mem_of_switch? hs
        · split at h
          · next hit hhit =>
            cases h
            exact mem_of_completions (hhit ▸ List.mem_singleton_self hit)
          · split at h <;> cases h <;> trivial
          · cases h
  · cases h
    trivial

theorem known_of_tokens {arguments : List String} {ts : List Token}
    (h : g.tokens arguments = .ok ts) : ∀ t ∈ ts, t.Known g := by
  induction arguments generalizing ts with
  | nil =>
    cases h
    simp
  | cons argument rest ih =>
    rw [Grammar.tokens] at h
    split at h
    · cases h
      refine List.forall_mem_cons.mpr ⟨trivial, fun t ht => ?_⟩
      obtain ⟨s, -, rfl⟩ := List.mem_map.mp ht
      trivial
    · split at h
      · cases h
      · next token htoken =>
        split at h
        · cases h
        · next later hlater =>
          cases h
          exact List.forall_mem_cons.mpr ⟨known_of_classify htoken, ih hlater⟩

/-! ## One step of the second pass -/

namespace Reader

/-- Switches of the grammar, none of which takes a value. -/
def Flags (g : Grammar) (flags : List Switch) : Prop :=
  ∀ s ∈ flags, s ∈ g.switches ∧ s.kind.takesValue = false

theorem Flags.nil : Flags g [] := fun _ h => nomatch h

theorem Flags.concat {flags : List Switch} {s : Switch} (h : Flags g flags) (hs : s ∈ g.switches)
    (hflag : s.kind.takesValue = false) : Flags g (flags ++ [s]) := by
  intro s' hs'
  obtain hs' | hs' := List.mem_append.mp hs'
  · exact h s' hs'
  · rw [List.mem_singleton.mp hs']
    exact ⟨hs, hflag⟩

/-- The switches of a cluster are those of the grammar, each where it belongs. -/
structure Cluster.Known (g : Grammar) (c : Cluster) : Prop where
  flags : Flags g c.flags
  valued : ∀ s text, c.valued = some (s, text) → s ∈ g.switches
  waiting : ∀ s, c.waiting = some s → s ∈ g.switches

variable {s : Switch} {before : List Switch} {c : Cluster}

/-- The switch whose value is expected after a cluster. -/
theorem Cluster.Known.mem_of_value {c : Cluster} (hc : c.Known g) (s : Switch)
    (h : (match c.waiting with
      | some s => Expectation.value s
      | none => Expectation.anything) = .value s) : s ∈ g.switches := by
  cases hwaiting : c.waiting with
  | none =>
    rw [hwaiting] at h
    cases h
  | some s' =>
    rw [hwaiting] at h
    cases h
    exact hc.waiting s hwaiting

theorem Cluster.known_of_closed (hs : s ∈ g.switches)
    (hbefore : Flags g before) {attached : List Char}
    (h : closed g s before attached = .ok c) : c.Known g := by
  rw [closed] at h
  split at h
  · cases h
    refine ⟨hbefore, fun s' text h => ?_, by simp⟩
    cases h
    exact hs
  · cases h

theorem Cluster.known_bare (hs : s ∈ g.switches)
    (hbefore : Flags g before) :
    (bare s before).Known g := by
  rw [bare]
  split
  · refine ⟨hbefore, by simp, fun s' h => ?_⟩
    cases h
    exact hs
  · next hflag =>
    exact ⟨hbefore.concat hs (Bool.eq_false_iff.mpr hflag), by simp, by simp⟩

theorem Cluster.known_of_unfold (hs : s ∈ g.switches)
    (hbefore : Flags g before) {text : List Char}
    (h : unfold g s before text = .ok c) : c.Known g := by
  induction text generalizing s before with
  | nil => exact known_of_closed hs hbefore h
  | cons letter rest ih =>
    rw [unfold] at h
    split at h
    · exact known_of_closed hs hbefore h
    · next hflag =>
      have hbefore' := hbefore.concat hs (Bool.eq_false_iff.mpr hflag)
      split at h
      · exact known_of_closed hs hbefore h
      · next hnext =>
        split at h
        · cases h
          exact known_bare (mem_of_switch? hnext) hbefore'
        · exact ih (mem_of_switch? hnext) hbefore' h

theorem Cluster.known_of_clusterOf {hit : Hit} (hs : hit.switch ∈ g.switches)
    (h : clusterOf g hit = .ok c) : c.Known g := by
  rw [clusterOf] at h
  split at h
  · cases h
    exact known_bare hs .nil
  · split at h
    · exact known_of_closed hs .nil h
    · exact known_of_unfold hs .nil h

/-! ## Values that are recorded -/

variable {r r' : Reading}

theorem admitted_record (hr : r.Admitted g) {name : String} {v : Value}
    (hv : g.Admits (name, v)) : (record r name v).Admitted g :=
  List.forall_mem_append.mpr ⟨hr, List.forall_mem_singleton.mpr hv⟩

theorem admitted_of_recordInteger (hr : r.Admitted g) {name label argument : String}
    (hname : ∀ n, g.Admits (name, .integer n))
    (h : recordInteger g r name label argument = .ok r') : r'.Admitted g := by
  rw [recordInteger] at h
  split at h
  · cases h
    exact admitted_record hr (hname _)
  · cases h

theorem admitted_of_take (hr : r.Admitted g) (hs : s ∈ g.switches)
    (hflag : s.kind.takesValue = false) (h : take g r s = .ok r') : r'.Admitted g := by
  rw [take] at h
  split at h
  · cases h
  · next hhelp =>
    cases h
    refine admitted_record hr (.switch hs ?_)
    cases hkind : s.kind with
    | help => exact absurd hkind hhelp
    | flag => rfl
    | integer => simp [hkind, Kind.takesValue] at hflag
    | choice among => simp [hkind, Kind.takesValue] at hflag
    | text => simp [hkind, Kind.takesValue] at hflag

theorem admitted_of_takeValue (hr : r.Admitted g) (hs : s ∈ g.switches) {argument : String}
    (h : takeValue g r s argument = .ok r') : r'.Admitted g := by
  rw [takeValue] at h
  split at h
  · next hblank =>
    cases h
    refine admitted_record hr (.switch hs ?_)
    cases hkind : s.kind with
    | help => simp [hkind, Kind.takesValue] at hblank
    | flag => simp [hkind, Kind.takesValue] at hblank
    | integer => exact .inl rfl
    | choice among => exact .inl rfl
    | text => exact .inl rfl
  · split at h
    · next hkind =>
      refine admitted_of_recordInteger hr (fun n => .switch hs ?_) h
      rw [hkind]
      exact .inr ⟨n, rfl⟩
    · next among hkind =>
      split at h
      · next hmem =>
        cases h
        refine admitted_record hr (.switch hs ?_)
        rw [hkind]
        exact .inr ⟨argument, List.contains_iff_mem.mp hmem, rfl⟩
      · cases h
    · next hkind =>
      cases h
      refine admitted_record hr (.switch hs ?_)
      rw [hkind]
      exact .inr ⟨argument, rfl⟩
    · next hkind => exact admitted_of_take hr hs (by rw [hkind]; rfl) h
    · next hkind => exact admitted_of_take hr hs (by rw [hkind]; rfl) h

theorem admitted_of_flags (hr : r.Admitted g) {flags : List Switch}
    (hflags : Flags g flags)
    (h : flags.foldlM (take g) r = .ok r') : r'.Admitted g := by
  induction flags generalizing r with
  | nil =>
    cases h
    exact hr
  | cons s rest ih =>
    obtain ⟨⟨hs, hflag⟩, hrest⟩ := List.forall_mem_cons.mp hflags
    rw [List.foldlM_cons] at h
    obtain ⟨taken, htake, h⟩ := exists_of_bind h
    exact ih (admitted_of_take hr hs hflag htake) hrest h

theorem admitted_of_takeCommand (hr : r.Admitted g) {label name : String} {among : List String}
    {rest : List Token} (h : takeCommand g r label among name rest = .ok r') : r'.Admitted g := by
  rw [takeCommand] at h
  split at h
  · cases h
    exact hr
  · cases h

/-! ## The second pass -/

/-- **The second pass records what is admitted**, from known tokens and from where it waits for no
value but that of a switch of the grammar. -/
theorem admitted_of_go {pending : Bool} {e : Expectation} {ts : List Token}
    (hts : ∀ t ∈ ts, t.Known g) (he : ∀ s, e = .value s → s ∈ g.switches) (hr : r.Admitted g)
    (h : go g pending e r ts = .ok r') : r'.Admitted g := by
  fun_induction go g pending e r ts
  case case1 => cases h
  case case2 =>
    cases h
    exact hr
  case case3 s argument ih =>
    obtain ⟨taken, htake, h⟩ := exists_of_bind h
    obtain ⟨-, hrest⟩ := List.forall_mem_cons.mp hts
    exact ih _ hrest (by simp) (admitted_of_takeValue hr (he s rfl) htake) h
  case case4 => cases h
  case case7 name hoperand _ ih =>
    obtain ⟨taken, htake, h⟩ := exists_of_bind h
    obtain ⟨-, hrest⟩ := List.forall_mem_cons.mp hts
    exact ih _ hrest (by simp) (admitted_of_recordInteger hr (fun n => .operand hoperand n) htake) h
  case case8 => exact admitted_of_takeCommand hr h
  case case12 =>
    cases h
    exact hr
  case case13 => exact admitted_of_takeCommand hr h
  case case16 hit _ ih =>
    obtain ⟨hknown, hrest⟩ := List.forall_mem_cons.mp hts
    obtain ⟨cluster, hcluster, h⟩ := exists_of_bind h
    have hcluster' := Cluster.known_of_clusterOf hknown hcluster
    obtain ⟨flagged, hflagged, h⟩ := exists_of_bind h
    have hadmitted := admitted_of_flags hr hcluster'.flags hflagged
    cases hvalued : cluster.valued with
    | some valued =>
      obtain ⟨s, text⟩ := valued
      rw [hvalued] at h
      obtain ⟨taken, htake, h⟩ := exists_of_bind h
      exact ih _ _ hrest hcluster'.mem_of_value
        (admitted_of_takeValue hadmitted (hcluster'.valued s text hvalued) htake) h
    | none =>
      rw [hvalued] at h
      exact ih _ _ hrest hcluster'.mem_of_value hadmitted h
  -- An argument that nobody asked for, and two dashes, leave what is recorded as it is.
  all_goals
    rename_i ih
    exact ih (List.forall_mem_cons.mp hts).2 (by simp) hr h

end Reader

/-! ## Readings -/

variable {r : Reading}

/-- **A reading records nothing but what its grammar admits.** -/
theorem read_admits {arguments : List String} (h : g.read arguments = .ok r) : r.Admitted g := by
  obtain ⟨ts, hts, h⟩ := exists_of_bind h
  obtain ⟨r', hgo, h⟩ := exists_of_bind h
  have hadmitted : r'.Admitted g :=
    Reader.admitted_of_go (known_of_tokens hts) (by simp) .empty hgo
  split at h
  · cases h
    exact hadmitted
  · cases h

theorem Reading.Admitted.of_last? (hr : r.Admitted g) {name : String} {v : Value}
    (h : r.last? name = some v) : g.Admits (name, v) := by
  obtain ⟨e, he, rfl⟩ := Option.map_eq_some_iff.mp h
  have hname : e.1 = name := by simpa using List.find?_some he
  have hadmits := hr e (List.mem_reverse.mp (List.mem_of_find?_eq_some he))
  rw [← hname]
  exact hadmits

/-- A switch with choices is set to one of them, or to nothing. -/
theorem Reading.Admitted.text?_of_choice (hr : r.Admitted g) {name : String} {among : List String}
    (hkind : ∀ s ∈ g.switches, s.key = name → s.kind = .choice among)
    {setting : Setting String} (h : r.text? name = some setting) :
    setting = .blank ∨ ∃ s ∈ among, setting = .value s := by
  rw [Reading.text?] at h
  split at h
  · next text hlast =>
    cases h
    cases hr.of_last? hlast with
    | switch hs hv =>
      rw [hkind _ hs rfl] at hv
      obtain hblank | ⟨s, hs, htext⟩ := hv
      · cases hblank
      · cases htext
        exact .inr ⟨text, hs, rfl⟩
  · cases h
    exact .inl rfl
  · cases h

end Noughts.CommandLine
