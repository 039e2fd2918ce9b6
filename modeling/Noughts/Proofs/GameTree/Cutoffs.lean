import Noughts.Proofs.GameTree

/-!
# The two cutoffs

What a search finds when branches are skipped, measured against `Tree.value`, which skips nothing.

* `Tree.search_window`: with window pruning on, the score brackets the value.  Where the score lies
  below the upper end of the window it is an upper bound, and where it lies above the lower end it
  is a lower bound; so it is exact inside the window, and this needs nothing of the tree.
* `Tree.Complete.search_decisive`: the decisive cutoff changes no score, in any window.  This one
  does ask for something: a seed that came up as the score of a child could be taken for a missing
  best, so the tree has to be `Complete`.
* `Tree.Complete.search_eq_value`: on a complete tree, in a window around all outcomes, every
  search finds the value.

Each is a fact about one weighing (`weigh_brackets`, `weigh_decisive`), carried along the children
of a fork, and then up the tree.
-/

set_option autoImplicit false

namespace Noughts

/-! ## What one weighing can do -/

variable {cfg : Pruning} {side : Side} {α β best score : Score}

/-- A score that is not preferred leaves the sweep as it was. -/
theorem weigh_of_not_prefers (h : side.prefers score best = false)
    (hd : cfg.decisive = false ∨ score ≠ side.goal) :
    weigh cfg side α β best score = .resume α β best := by
  rw [weigh.eq_def, h]
  rcases hd with hd | hd <;> simp [hd]

/-- A score that is preferred is what the call ends with or the best from now on. -/
theorem weigh_of_prefers (cfg : Pruning) (α β : Score) (h : side.prefers score best = true) :
    weigh cfg side α β best score = .stop score
      ∨ ∃ α' β', weigh cfg side α β best score = .resume α' β' score := by
  rw [weigh.eq_def, h]
  by_cases hd : (cfg.decisive && decide (score = side.goal)) = true
  · rw [if_pos hd]
    have hg : score = side.goal := by simpa using (Bool.and_eq_true_iff.mp hd).2
    exact Or.inl (by rw [← hg])
  · rw [if_neg hd, if_pos rfl]
    cases cfg.window with
    | false => exact Or.inr ⟨α, β, rfl⟩
    | true =>
      rw [if_pos rfl]
      cases side with
      | maximizer =>
        by_cases hcut : β ≤ score
        · exact Or.inl (if_pos hcut)
        · exact Or.inr ⟨_, _, if_neg hcut⟩
      | minimizer =>
        by_cases hcut : score ≤ α
        · exact Or.inl (if_pos hcut)
        · exact Or.inr ⟨_, _, if_neg hcut⟩

/-- A weighing invents no score. -/
theorem weigh_mem (cfg : Pruning) (side : Side) (α β best score : Score) :
    weigh cfg side α β best score = .stop score
      ∨ ∃ α' β' best', weigh cfg side α β best score = .resume α' β' best'
        ∧ (best' = score ∨ best' = best) := by
  by_cases hp : side.prefers score best = true
  · rcases weigh_of_prefers cfg α β hp with h | ⟨α', β', h⟩
    · exact Or.inl h
    · exact Or.inr ⟨α', β', score, h, Or.inl rfl⟩
  · rw [Bool.not_eq_true] at hp
    by_cases hd : cfg.decisive = false ∨ score ≠ side.goal
    · exact Or.inr ⟨α, β, best, weigh_of_not_prefers hp hd, Or.inr rfl⟩
    · -- The decisive cutoff takes the goal even where it is no improvement.
      obtain ⟨hd, hg⟩ := not_or.mp hd
      rw [Bool.not_eq_false] at hd
      rw [Decidable.not_not] at hg
      refine Or.inl ?_
      rw [weigh.eq_def, hg]
      simp [hd]

theorem score_of_stop {s : Score} (h : weigh cfg side α β best score = .stop s) : s = score := by
  rcases weigh_mem cfg side α β best score with hv | ⟨_, _, _, hv, _⟩
  · rw [hv] at h
    cases h
    rfl
  · rw [hv] at h
    cases h

theorem best_of_resume {α' β' best' : Score}
    (h : weigh cfg side α β best score = .resume α' β' best') : best' = score ∨ best' = best := by
  rcases weigh_mem cfg side α β best score with hv | ⟨_, _, _, hv, hb⟩
  · rw [hv] at h
    cases h
  · rw [hv] at h
    cases h
    exact hb

/-! ## Window pruning -/

/-- What a score `r` that was found in the window `α … β` says about the value `v`.  The ends of
the window are the scores at which a search stops looking, so each bound is only good on its own
side of one of them. -/
structure Brackets (α β r v : Score) : Prop where
  /-- Below the upper end, nothing better was skipped. -/
  upper : r < β → v ≤ r
  /-- Above the lower end, the score was reached. -/
  lower : α < r → r ≤ v

theorem weigh_maximizer (α β best score : Score) :
    weigh .windowed .maximizer α β best score =
      if best < score then
        if β ≤ score then .stop score else .resume (max α score) β score
      else .resume α β best := by
  simp only [weigh.eq_def, Side.prefers, Bool.false_and, Bool.false_eq_true, if_false, if_true,
    decide_eq_true_eq, max_def_lt]

theorem weigh_minimizer (α β best score : Score) :
    weigh .windowed .minimizer α β best score =
      if score < best then
        if score ≤ α then .stop score else .resume α (min score β) score
      else .resume α β best := by
  simp only [weigh.eq_def, Side.prefers, Bool.false_and, Bool.false_eq_true, if_false, if_true,
    decide_eq_true_eq, min_def_lt]

namespace Brackets

variable {v w r : Score}

theorem refl (α β v : Score) : Brackets α β v v :=
  ⟨fun _ => le_refl v, fun _ => le_refl v⟩

/-- A score at the far end of the window was reached, whatever is skipped after it. -/
theorem cut_maximizer (h : Brackets α β score v) (hcut : β ≤ score) (w : Score) :
    Brackets α β score (max v w) := by
  refine ⟨fun hβ => absurd hcut (not_le.mpr hβ), fun hα => ?_⟩
  exact (h.lower hα).trans (le_max_left v w)

theorem cut_minimizer (h : Brackets α β score v) (hcut : score ≤ α) (w : Score) :
    Brackets α β score (min v w) := by
  refine ⟨fun hβ => ?_, fun hα => absurd hcut (not_le.mpr hα)⟩
  exact (min_le_left v w).trans (h.upper hβ)

/-- A score that the result `r` is no worse than adds nothing to it. -/
theorem keep_maximizer (h : Brackets α β score v) (hr : score ≤ r) (hb : Brackets α β r w) :
    Brackets α β r (max v w) := by
  refine ⟨fun hβ => ?_, fun hα => ?_⟩
  · have hv : v ≤ r := (h.upper (hr.trans_lt hβ)).trans hr
    exact max_le hv (hb.upper hβ)
  · exact (hb.lower hα).trans (le_max_right v w)

theorem keep_minimizer (h : Brackets α β score v) (hr : r ≤ score) (hb : Brackets α β r w) :
    Brackets α β r (min v w) := by
  refine ⟨fun hβ => ?_, fun hα => ?_⟩
  · exact (min_le_right v w).trans (hb.upper hβ)
  · have hv : r ≤ v := hr.trans (h.lower (hα.trans_le hr))
    exact le_min hv (hb.lower hα)

/-- After a new best score the near end of the window has moved up to it.  A result above that
score came from a later child; the score itself came from this one. -/
theorem raise_maximizer (h : Brackets α β score v) (hr : score ≤ r)
    (hb : Brackets (max α score) β r (max score w)) : Brackets α β r (max v w) := by
  refine ⟨fun hβ => ?_, fun hα => ?_⟩
  · have hv : v ≤ r := (h.upper (hr.trans_lt hβ)).trans hr
    have hw : w ≤ r := (le_max_right score w).trans (hb.upper hβ)
    exact max_le hv hw
  · rcases hr.lt_or_eq with hlt | rfl
    · have hle : r ≤ max score w := hb.lower (max_lt hα hlt)
      have hw : r ≤ w := (le_max_iff.mp hle).resolve_left (not_le.mpr hlt)
      exact hw.trans (le_max_right v w)
    · exact (h.lower hα).trans (le_max_left v w)

theorem raise_minimizer (h : Brackets α β score v) (hr : r ≤ score)
    (hb : Brackets α (min score β) r (min score w)) : Brackets α β r (min v w) := by
  refine ⟨fun hβ => ?_, fun hα => ?_⟩
  · rcases hr.lt_or_eq with hlt | rfl
    · have hle : min score w ≤ r := hb.upper (lt_min hlt hβ)
      have hw : w ≤ r := (min_le_iff.mp hle).resolve_left (not_le.mpr hlt)
      exact (min_le_right v w).trans hw
    · exact (min_le_left v w).trans (h.upper hβ)
  · have hv : r ≤ v := hr.trans (h.lower (hα.trans_le hr))
    have hw : r ≤ w := (hb.lower hα).trans (min_le_right score w)
    exact le_min hv hw

end Brackets

/-- **One weighing keeps the brackets.**  Here `v` is the value of the child that was scored and
`w` the best of `best` and the values of the children still to come. -/
theorem weigh_brackets {v w : Score} (hs : Brackets α β score v) (hw : side.better best w = w) :
    match weigh .windowed side α β best score with
    | .stop r => side.better best r = r ∧ Brackets α β r (side.better v w)
    | .resume α' β' best' => best' = side.better score best ∧
        ∀ r, side.better best' r = r → Brackets α' β' r (side.better best' w) →
          side.better best r = r ∧ Brackets α β r (side.better v w) := by
  cases side with
  | maximizer =>
    rw [weigh_maximizer]
    simp only [Side.better, max_eq_right_iff] at hw ⊢
    by_cases hbest : best < score
    · rw [if_pos hbest]
      by_cases hβ : β ≤ score
      · rw [if_pos hβ]
        exact ⟨hbest.le, hs.cut_maximizer hβ w⟩
      · rw [if_neg hβ]
        refine ⟨(max_eq_left hbest.le).symm, fun r hr hb => ?_⟩
        exact ⟨hbest.le.trans hr, hs.raise_maximizer hr hb⟩
    · rw [if_neg hbest]
      have hle : score ≤ best := not_lt.mp hbest
      refine ⟨(max_eq_right hle).symm, fun r hr hb => ?_⟩
      rw [max_eq_right hw] at hb
      exact ⟨hr, hs.keep_maximizer (hle.trans hr) hb⟩
  | minimizer =>
    rw [weigh_minimizer]
    simp only [Side.better, min_eq_right_iff] at hw ⊢
    by_cases hbest : score < best
    · rw [if_pos hbest]
      by_cases hα : score ≤ α
      · rw [if_pos hα]
        exact ⟨hbest.le, hs.cut_minimizer hα w⟩
      · rw [if_neg hα]
        refine ⟨(min_eq_left hbest.le).symm, fun r hr hb => ?_⟩
        exact ⟨hr.trans hbest.le, hs.raise_minimizer hr hb⟩
    · rw [if_neg hbest]
      have hle : best ≤ score := not_lt.mp hbest
      refine ⟨(min_eq_right hle).symm, fun r hr hb => ?_⟩
      rw [min_eq_right hw] at hb
      exact ⟨hr, hs.keep_minimizer (hr.trans hle) hb⟩

namespace Tree

/-- The brackets of the children of a fork are brackets of the fork. -/
theorem searchAll_window {ts : List Tree}
    (h : ∀ t ∈ ts, ∀ α β, Brackets α β (t.search .windowed α β).score t.value) (α β best : Score) :
    side.better best (searchAll .windowed side ts α β best).score
        = (searchAll .windowed side ts α β best).score
      ∧ Brackets α β (searchAll .windowed side ts α β best).score (bestOf side best ts) := by
  induction ts generalizing α β best with
  | nil => exact ⟨side.better_self best, Brackets.refl α β best⟩
  | cons t rest ih =>
    have hw : side.better best (bestOf side best rest) = bestOf side best rest := by
      rw [← bestOf_better, side.better_self]
    have hstep := weigh_brackets (h t List.mem_cons_self α β) hw
    rw [searchAll, bestOf]
    cases hv : weigh .windowed side α β best (t.search .windowed α β).score with
    | stop s =>
      simp only [hv] at hstep ⊢
      exact hstep
    | resume α' β' best' =>
      simp only [hv] at hstep ⊢
      obtain ⟨hbest, hstep⟩ := hstep
      obtain ⟨hr, hb⟩ := ih (fun u hu => h u (List.mem_cons_of_mem _ hu)) α' β' best'
      -- The sweep goes on from `best'`, which is as good as going on from `best` and counting it.
      have hrest : bestOf side best' rest = side.better best' (bestOf side best rest) := by
        rw [hbest, bestOf_better, side.better_assoc, hw]
      rw [hrest] at hb
      exact hstep _ hr hb

/-- **With window pruning on, the score brackets the value.** -/
theorem search_window (t : Tree) (α β : Score) :
    Brackets α β (t.search .windowed α β).score t.value := by
  induction t generalizing α β with
  | leaf s => exact Brackets.refl α β s
  | fork side children ih => exact (searchAll_window ih α β side.seed).2

end Tree

/-! ## Outcomes -/

/-- The scores of a game that was played to its end. -/
def IsOutcome (s : Score) : Prop :=
  s = Score.win ∨ s = Score.tie ∨ s = Score.lose

theorem IsOutcome.prefers_seed {s : Score} (h : IsOutcome s) (side : Side) :
    side.prefers s side.seed = true := by
  rcases h with rfl | rfl | rfl <;> cases side <;> rfl

theorem IsOutcome.eq_goal_or_prefers {s : Score} (h : IsOutcome s) (side : Side) :
    s = side.goal ∨ side.prefers side.goal s = true := by
  rcases h with rfl | rfl | rfl <;> cases side <;> decide

theorem IsOutcome.prefers_goal {s : Score} (h : IsOutcome s) (side : Side) :
    side.prefers s side.goal = false := by
  rcases h with rfl | rfl | rfl <;> cases side <;> rfl

theorem IsOutcome.lose_le {s : Score} (h : IsOutcome s) : Score.lose ≤ s := by
  rcases h with rfl | rfl | rfl <;> decide

theorem IsOutcome.le_win {s : Score} (h : IsOutcome s) : s ≤ Score.win := by
  rcases h with rfl | rfl | rfl <;> decide

theorem IsOutcome.goal (side : Side) : IsOutcome side.goal := by
  cases side
  · exact Or.inl rfl
  · exact Or.inr (Or.inr rfl)

namespace Tree

/-- What holds of the scores of all children, and of the best score so far, holds of the score of a
sweep: none is invented. -/
theorem searchAll_score {P : Score → Prop} {ts : List Tree}
    (h : ∀ t ∈ ts, ∀ α β, P (t.search cfg α β).score) (hbest : P best) (α β : Score) :
    P (searchAll cfg side ts α β best).score := by
  induction ts generalizing α β best with
  | nil => exact hbest
  | cons t rest ih =>
    have hrest : ∀ u ∈ rest, ∀ α β, P (u.search cfg α β).score :=
      fun u hu => h u (List.mem_cons_of_mem _ hu)
    have ht := h t List.mem_cons_self α β
    rw [searchAll]
    rcases weigh_mem cfg side α β best (t.search cfg α β).score with hv | ⟨α', β', best', hv, hb⟩
    · simp only [hv]
      exact ht
    · simp only [hv]
      rcases hb with rfl | rfl
      · exact ih hrest ht α' β'
      · exact ih hrest hbest α' β'

/-- Every leaf is an outcome. -/
inductive Decided : Tree → Prop
  | leaf {s : Score} (h : IsOutcome s) : Decided (leaf s)
  | fork {side : Side} {children : List Tree} (h : ∀ t ∈ children, Decided t) :
      Decided (fork side children)

/-- Every leaf is an outcome, and every fork has a child. -/
inductive Complete : Tree → Prop
  | leaf {s : Score} (h : IsOutcome s) : Complete (leaf s)
  | fork {side : Side} {children : List Tree} (hne : children ≠ [])
      (h : ∀ t ∈ children, Complete t) : Complete (fork side children)

/-- A search whose leaves are outcomes finds an outcome, or the seed of a fork without children. -/
theorem Decided.search_score {t : Tree} (h : t.Decided) (cfg : Pruning) (α β : Score) :
    IsOutcome (t.search cfg α β).score ∨ ∃ side : Side, (t.search cfg α β).score = side.seed := by
  induction h generalizing α β with
  | leaf hs => exact Or.inl hs
  | @fork side children _ ih =>
    have hP := @searchAll_score cfg side side.seed
      (fun s => IsOutcome s ∨ ∃ side : Side, s = side.seed) children ih (Or.inr ⟨side, rfl⟩) α β
    exact hP

/-- **On a complete tree a search finds an outcome**, in every window and configuration. -/
theorem Complete.search_score {t : Tree} (h : t.Complete) (cfg : Pruning) (α β : Score) :
    IsOutcome (t.search cfg α β).score := by
  induction h generalizing α β with
  | leaf hs => exact hs
  | @fork side children hne _ ih =>
    -- The first child beats the seed, and from then on the best score is an outcome.
    obtain ⟨t, rest, rfl⟩ := List.exists_cons_of_ne_nil hne
    have ht := ih t List.mem_cons_self α β
    rw [search, searchAll]
    rcases weigh_of_prefers cfg α β (ht.prefers_seed side) with hv | ⟨α', β', hv⟩
    · simp only [hv]
      exact ht
    · simp only [hv]
      exact searchAll_score (fun u hu => ih u (List.mem_cons_of_mem _ hu)) ht α' β'

end Tree

/-! ## The decisive cutoff -/

/-- Below the goal, the decisive cutoff makes no difference to a weighing. -/
theorem weigh_decisive_of_ne (w : Bool) (h : score ≠ side.goal) :
    weigh ⟨w, true⟩ side α β best score = weigh ⟨w, false⟩ side α β best score := by
  simp [weigh.eq_def, h]

theorem weigh_decisive_goal (w : Bool) :
    weigh ⟨w, true⟩ side α β best side.goal = .stop side.goal := by
  simp [weigh.eq_def]

/-- As long as the goal has not come up, it would still be an improvement. -/
theorem prefers_goal_of_resume {α' β' best' : Score} (hs : IsOutcome score)
    (hg : score ≠ side.goal) (hbest : side.prefers side.goal best = true)
    (hv : weigh cfg side α β best score = .resume α' β' best') :
    side.prefers side.goal best' = true := by
  rcases best_of_resume hv with rfl | rfl
  · exact (hs.eq_goal_or_prefers side).resolve_left hg
  · exact hbest

/-- **One weighing with and without the decisive cutoff.**  As long as the goal would still be an
improvement, the two either agree, and then it still is one, or the cutoff has taken the goal and
without it the goal is now the best score or ends the call as well. -/
theorem weigh_decisive (w : Bool) (α β : Score) (hs : IsOutcome score)
    (hbest : side.prefers side.goal best = true) :
    (weigh ⟨w, true⟩ side α β best score = weigh ⟨w, false⟩ side α β best score ∧
        ∀ α' β' best', weigh ⟨w, false⟩ side α β best score = .resume α' β' best' →
          side.prefers side.goal best' = true)
      ∨ weigh ⟨w, true⟩ side α β best score = .stop side.goal ∧
        (weigh ⟨w, false⟩ side α β best score = .stop side.goal
          ∨ ∃ α' β', weigh ⟨w, false⟩ side α β best score = .resume α' β' side.goal) := by
  by_cases hg : score = side.goal
  · subst hg
    exact Or.inr ⟨weigh_decisive_goal w, weigh_of_prefers ⟨w, false⟩ α β hbest⟩
  · exact Or.inl ⟨weigh_decisive_of_ne w hg, fun _ _ _ => prefers_goal_of_resume hs hg hbest⟩

namespace Tree

/-- A sweep that already has the goal keeps it: no outcome is preferred to it. -/
theorem searchAll_goal (w : Bool) {ts : List Tree}
    (h : ∀ t ∈ ts, ∀ α β, IsOutcome (t.search ⟨w, false⟩ α β).score) (α β : Score) :
    (searchAll ⟨w, false⟩ side ts α β side.goal).score = side.goal := by
  induction ts with
  | nil => rfl
  | cons t rest ih =>
    rw [searchAll,
      weigh_of_not_prefers ((h t List.mem_cons_self α β).prefers_goal side) (Or.inl rfl)]
    exact ih fun u hu => h u (List.mem_cons_of_mem _ hu)

theorem searchAll_decisive (w : Bool) {ts : List Tree}
    (ho : ∀ t ∈ ts, ∀ cfg α β, IsOutcome (t.search cfg α β).score)
    (h : ∀ t ∈ ts, ∀ α β, (t.search ⟨w, true⟩ α β).score = (t.search ⟨w, false⟩ α β).score)
    (hbest : side.prefers side.goal best = true) (α β : Score) :
    (searchAll ⟨w, true⟩ side ts α β best).score
      = (searchAll ⟨w, false⟩ side ts α β best).score := by
  induction ts generalizing α β best with
  | nil => rfl
  | cons t rest ih =>
    have ho' : ∀ u ∈ rest, ∀ cfg α β, IsOutcome (u.search cfg α β).score :=
      fun u hu => ho u (List.mem_cons_of_mem _ hu)
    have ih' : ∀ {best : Score}, side.prefers side.goal best = true → ∀ α β, _ :=
      fun hb α β => ih ho' (fun u hu => h u (List.mem_cons_of_mem _ hu)) hb α β
    rw [searchAll, searchAll, h t List.mem_cons_self α β]
    rcases weigh_decisive w α β (ho t List.mem_cons_self ⟨w, false⟩ α β) hbest with
      ⟨heq, hnext⟩ | ⟨hcut, hstop | ⟨α', β', hgo⟩⟩
    · rw [heq]
      cases hv : weigh ⟨w, false⟩ side α β best (t.search ⟨w, false⟩ α β).score with
      | stop s => rfl
      | resume α' β' best' => exact ih' (hnext α' β' best' hv) α' β'
    · rw [hcut, hstop]
    · rw [hcut, hgo]
      exact (searchAll_goal w (fun u hu => ho' u hu ⟨w, false⟩) α' β').symm

/-- **On a complete tree the decisive cutoff changes no score**, in any window. -/
theorem Complete.search_decisive {t : Tree} (h : t.Complete) (w : Bool) (α β : Score) :
    (t.search ⟨w, true⟩ α β).score = (t.search ⟨w, false⟩ α β).score := by
  induction h generalizing α β with
  | leaf hs => rfl
  | @fork side children _ hall ih =>
    refine searchAll_decisive w (fun u hu cfg => (hall u hu).search_score cfg) ih ?_ α β
    exact (IsOutcome.goal side).prefers_seed side

theorem Complete.isOutcome_value {t : Tree} (h : t.Complete) : IsOutcome t.value := by
  have hs := h.search_score .plain Score.bottom Score.top
  rwa [search_plain] at hs

/-- **On a complete tree, every search in a window around all outcomes finds the value.** -/
theorem Complete.search_eq_value {t : Tree} (h : t.Complete) (cfg : Pruning) {α β : Score}
    (hα : α < Score.lose) (hβ : Score.win < β) : (t.search cfg α β).score = t.value := by
  obtain ⟨w, d⟩ := cfg
  have hoff : (t.search ⟨w, false⟩ α β).score = t.value := by
    cases w with
    | false => rw [search_plain]
    | true =>
      -- The score is an outcome, so it lies inside the window, where it is exact.
      have hs := h.search_score .windowed α β
      have hb := t.search_window α β
      exact le_antisymm (hb.lower (hα.trans_le hs.lose_le)) (hb.upper (hs.le_win.trans_lt hβ))
  cases d with
  | false => exact hoff
  | true => rw [h.search_decisive, hoff]

end Tree

end Noughts
