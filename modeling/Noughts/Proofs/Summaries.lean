import Noughts.Benchmark
import Noughts.Proofs.Counts
import Noughts.Proofs.Tallies

/-!
# Summaries by name

The timings of a list come under names, and every name has a summary of its own.  The table of
samples that the summaries are made from is filled one timing at a time, and names come up in it in
the order in which they are first met.

What a table says once some timings have been filed can be read off the timings (`groups_eq`): its
names are theirs without the repetitions, and the samples of a name are those that came under it, in
their order (`samplesOf`).  One more timing keeps this up, whether its name is new or not
(`file_tabulated`).

* `phaseSummaries_eq`: so it is for the phases of a benchmark.
* `phaseSummaries_grouped`: no phase is lost, none is counted twice, and nothing changes places.
-/

set_option autoImplicit false

namespace Noughts

/-! ## First places -/

section EraseDups

variable {α : Type} [DecidableEq α]

/-- Without its repetitions, a list is in the order of the first places. -/
theorem pairwise_idxOf_eraseDups (xs : List α) :
    xs.eraseDups.Pairwise fun a b => xs.idxOf a < xs.idxOf b := by
  induction xs using List.reverseRecOn with
  | nil => exact List.Pairwise.nil
  | append_singleton rest x ih =>
    have hkept : rest.eraseDups.Pairwise
        fun a b => (rest ++ [x]).idxOf a < (rest ++ [x]).idxOf b := by
      refine ih.imp_of_mem fun {a b} ha hb hlt => ?_
      rw [List.idxOf_append_of_mem (List.mem_eraseDups.mp ha),
        List.idxOf_append_of_mem (List.mem_eraseDups.mp hb)]
      exact hlt
    rw [eraseDups_concat]
    split_ifs with hmem
    · exact hkept
    · refine List.pairwise_append.mpr ⟨hkept, List.pairwise_singleton _ _, fun a ha b hb => ?_⟩
      have hold : a ∈ rest := List.mem_eraseDups.mp ha
      rw [List.mem_singleton.mp hb, List.idxOf_append_of_mem hold,
        List.idxOf_append_of_notMem hmem]
      exact Nat.lt_add_right _ (List.idxOf_lt_length_of_mem hold)

/-- How often the elements of a list occur in it comes to its length. -/
theorem sum_count_eraseDups (xs : List α) :
    (xs.eraseDups.map fun x => xs.count x).sum = xs.length := by
  have hperm : xs.eraseDups.Perm xs.dedup :=
    (List.perm_ext_iff_of_nodup (nodup_eraseDups xs) xs.nodup_dedup).mpr (by simp)
  rw [(hperm.map _).sum_eq, List.sum_map_count_dedup_eq_length]

end EraseDups

/-! ## The table of samples -/

namespace Statistics

/-- The samples that come under a name, in their order. -/
def samplesOf (timings : List (String × Float)) (name : String) : List Float :=
  (timings.filter fun t => t.1 = name).map Prod.snd

theorem samplesOf_concat (timings : List (String × Float)) (t : String × Float) (name : String) :
    samplesOf (timings ++ [t]) name
      = if name = t.1 then samplesOf timings name ++ [t.2] else samplesOf timings name := by
  rw [samplesOf, List.filter_append, List.map_append]
  split_ifs with hname
  · simp [samplesOf, hname]
  · simp [samplesOf, Ne.symm hname]

theorem length_samplesOf (timings : List (String × Float)) (name : String) :
    (samplesOf timings name).length = (timings.map Prod.fst).count name := by
  rw [samplesOf, List.length_map, ← List.countP_eq_length_filter, List.count, List.countP_map]
  rfl

/-- A name has samples if it is the name of one. -/
theorem samplesOf_eq_nil_iff {timings : List (String × Float)} {name : String} :
    samplesOf timings name = [] ↔ name ∉ timings.map Prod.fst := by
  rw [← List.length_eq_zero_iff, length_samplesOf, List.count_eq_zero]

/-- **Filing one more sample** changes the samples of its name, and puts the name at the end if it
is new.  A name that is not in the table has to have no samples yet. -/
theorem file_tabulated {names : List String} {samples : String → List Float} {name : String}
    (x : Float) (hnodup : names.Nodup) (hnew : name ∉ names → samples name = []) :
    file name x (names.map fun key => (key, samples key))
      = (if name ∈ names then names else names ++ [name]).map
          fun key => (key, if key = name then samples key ++ [x] else samples key) := by
  induction names with
  | nil => simp [file, hnew List.not_mem_nil]
  | cons key rest ih =>
    obtain ⟨hfresh, hrest⟩ := List.nodup_cons.mp hnodup
    rw [List.map_cons, file]
    by_cases hkey : key = name
    · -- the rest of the table has other names, so nothing is filed there
      subst hkey
      have hothers : ∀ other ∈ rest, other ≠ key := fun other hother heq => hfresh (heq ▸ hother)
      simp only [if_pos, List.mem_cons_self, List.map_cons]
      congr 1
      exact List.map_congr_left fun other hother => by rw [if_neg (hothers other hother)]
    · rw [if_neg hkey, ih hrest fun hname => hnew fun hmem => ?_]
      · simp only [List.mem_cons, Ne.symm hkey, false_or]
        split_ifs <;> simp [hkey]
      · rcases List.mem_cons.mp hmem with heq | hmem
        · exact hkey heq.symm
        · exact hname hmem

/-- **The table of samples**, read off the timings. -/
theorem groups_eq (timings : List (String × Float)) :
    groups timings
      = (timings.map Prod.fst).eraseDups.map fun name => (name, samplesOf timings name) := by
  induction timings using List.reverseRecOn with
  | nil => rfl
  | append_singleton rest t ih =>
    rw [groups, List.foldl_append, ← groups, List.foldl_cons, List.foldl_nil, ih,
      file_tabulated t.2 (nodup_eraseDups _) fun hname => ?_, List.map_append, List.map_singleton,
      eraseDups_concat]
    · simp only [List.mem_eraseDups, samplesOf_concat]
    · rw [List.mem_eraseDups] at hname
      exact samplesOf_eq_nil_iff.mpr hname

namespace Summary

variable {xs : List Float}

theorem n_ofSamples (hxs : xs ≠ []) : (ofSamples xs).n = xs.length.toFloat := by
  rw [ofSamples, if_neg (by simpa using hxs)]

/-- A sample with something in it is told from an empty one by its size. -/
theorem ofSamples_ne_blank (hxs : xs ≠ []) : ofSamples xs ≠ blank := by
  intro hblank
  have hzero : xs.length.toFloat = 0.0 := by
    rw [← n_ofSamples hxs, hblank, blank]
  exact Number.toFloat_ne_zero (List.length_pos_iff.mpr hxs) hzero

end Summary

end Statistics

/-! ## The phases of a benchmark -/

/-- The times of the phases of a name, in the order in which they ran. -/
def phaseTimes (phases : List Phase) (name : String) : List Float :=
  (phases.filter fun p => p.name = name).map Phase.elapsed

theorem samplesOf_phases (phases : List Phase) (name : String) :
    Statistics.samplesOf (phases.map fun p => (p.name, p.elapsed)) name
      = phaseTimes phases name := by
  rw [Statistics.samplesOf, List.filter_map, List.map_map]
  rfl

theorem length_phaseTimes (phases : List Phase) (name : String) :
    (phaseTimes phases name).length = (phases.map Phase.name).count name := by
  rw [← samplesOf_phases, Statistics.length_samplesOf, List.map_map]
  rfl

theorem phaseTimes_ne_nil {phases : List Phase} {name : String}
    (h : name ∈ phases.map Phase.name) : phaseTimes phases name ≠ [] := by
  rw [← List.length_pos_iff, length_phaseTimes]
  exact List.count_pos_iff.mpr h

/-- **The summaries of some phases**: one for every name that comes up, of the times of its
phases. -/
theorem phaseSummaries_eq (phases : List Phase) :
    phaseSummaries phases = (phases.map Phase.name).eraseDups.map
      fun name => (name, Statistics.Summary.ofSamples (phaseTimes phases name)) := by
  rw [phaseSummaries, Statistics.summaries, Statistics.groups_eq, List.map_map, List.map_map]
  refine List.map_congr_left fun name _ => ?_
  rw [Function.comp_apply, samplesOf_phases]

theorem map_fst_phaseSummaries (phases : List Phase) :
    (phaseSummaries phases).map Prod.fst = (phases.map Phase.name).eraseDups := by
  rw [phaseSummaries_eq, List.map_map]
  exact List.map_id _

/-- A summary is never that of an empty sample, since its name comes up. -/
theorem summary_of_mem_phaseSummaries {phases : List Phase} {name : String}
    {summary : Statistics.Summary} (h : (name, summary) ∈ phaseSummaries phases) :
    summary = .ofSamples (phaseTimes phases name) ∧ phaseTimes phases name ≠ [] := by
  rw [phaseSummaries_eq] at h
  obtain ⟨_, hname, heq⟩ := List.mem_map.mp h
  obtain ⟨rfl, rfl⟩ := Prod.mk.inj heq
  exact ⟨rfl, phaseTimes_ne_nil (List.mem_eraseDups.mp hname)⟩

theorem map_n_phaseSummaries (phases : List Phase) :
    (phaseSummaries phases).map (fun entry => entry.2.n)
      = (((phaseSummaries phases).map Prod.fst).map
          fun name => (phaseTimes phases name).length).map Nat.toFloat := by
  rw [List.map_map, List.map_map]
  refine List.map_congr_left fun entry hentry => ?_
  obtain ⟨heq, htimes⟩ := summary_of_mem_phaseSummaries hentry
  rw [heq, Statistics.Summary.n_ofSamples htimes]
  rfl

/-- The phases of all names together are all phases. -/
theorem sum_length_phaseTimes (phases : List Phase) :
    (((phaseSummaries phases).map Prod.fst).map
      fun name => (phaseTimes phases name).length).sum = phases.length := by
  simp only [map_fst_phaseSummaries, length_phaseTimes]
  rw [sum_count_eraseDups, List.length_map]

/-- **Grouping loses, duplicates and reorders nothing.**  There is one summary for every name that
comes up, in the order in which names first do, and it is that of the times of the phases with that
name, in their order.  So no summary is the blank one, and the sizes add up to the number of phases:
as numbers always, and as doubles if there are no more phases than doubles can count. -/
theorem phaseSummaries_grouped (phases : List Phase) :
    let names := (phaseSummaries phases).map Prod.fst
    (∀ name, name ∈ names ↔ ∃ p ∈ phases, p.name = name)
      ∧ names.Pairwise (fun a b =>
          (phases.map Phase.name).idxOf a < (phases.map Phase.name).idxOf b)
      ∧ (∀ name summary, (name, summary) ∈ phaseSummaries phases →
          summary = .ofSamples (phaseTimes phases name) ∧ summary ≠ .blank
            ∧ summary.n = (phaseTimes phases name).length.toFloat)
      ∧ (names.map fun name => (phaseTimes phases name).length).sum = phases.length
      ∧ (phases.length ≤ 2 ^ 53 →
          ((phaseSummaries phases).map fun entry => entry.2.n).foldl (· + ·) 0.0
            = phases.length.toFloat) := by
  refine ⟨fun name => ?_, ?_, fun name summary hentry => ?_, sum_length_phaseTimes phases,
    fun hcount => ?_⟩
  · rw [map_fst_phaseSummaries, List.mem_eraseDups, List.mem_map]
  · rw [map_fst_phaseSummaries]
    exact pairwise_idxOf_eraseDups _
  · obtain ⟨rfl, htimes⟩ := summary_of_mem_phaseSummaries hentry
    exact ⟨rfl, Statistics.Summary.ofSamples_ne_blank htimes,
      Statistics.Summary.n_ofSamples htimes⟩
  · have hsum := sum_length_phaseTimes phases
    have hstart : (0.0 : Float) = (0 : Nat).toFloat := rfl
    rw [map_n_phaseSummaries, hstart, Number.foldl_add_toFloat _ 0 (by omega), hsum,
      Nat.zero_add]

/-- A phase of one name, then one of another, then the first name again. -/
def interleaved : List Phase :=
  [⟨"serial", 2.0, 6493, 1, []⟩, ⟨"parallel", 0.5, 6493, 1, []⟩, ⟨"serial", 1.5, 6493, 1, []⟩]

theorem phaseSummaries_grouped_interleaved :
    interleaved.length ≤ 2 ^ 53
      ∧ (phaseSummaries interleaved).map Prod.fst = ["serial", "parallel"]
      ∧ phaseTimes interleaved "serial" = [2.0, 1.5]
      ∧ ((phaseSummaries interleaved).map fun entry => entry.2.n).foldl (· + ·) 0.0 = 3.0 := by
  obtain ⟨-, -, -, -, hsum⟩ := phaseSummaries_grouped interleaved
  have hcount : interleaved.length ≤ 2 ^ 53 := by decide
  exact ⟨hcount, rfl, rfl, hsum hcount⟩

end Noughts
