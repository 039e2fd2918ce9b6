import Noughts.Proofs.GameTree.Cutoffs

/-!
# How much of the tree is entered

The cutoffs change how many nodes a search enters, and here two searches of the same tree are held
against one another.  The comparison is made sweep by sweep.  Two sweeps over the same children are
walked side by side, and the first enters no more nodes than the second as long as it never goes on
where the second has stopped; what has to be known for that is a relation between what the two
sweeps know (`Standing`), kept from one child to the next (`Tree.searchAll_nodes_le`).

* `Tree.search_nodes_le_plain`: no search enters more nodes than the one without cutoffs.
* `Tree.Complete.search_nodes_decisive`: nor does the decisive cutoff ever add a node.
* `Tree.Complete.search_nodes_nested`: with window pruning, a search in a window inside another
  enters no more nodes than the search in the other, if the outer window is not empty.
* `Tree.Complete.search_nodes_between`: with window pruning in a window between the two goals, a
  search enters no more nodes than with the decisive cutoff alone.
* `Tree.Complete.search_eq_windowed`: the decisive cutoff on top of window pruning is window pruning
  in a window whose ends have been drawn in to the goals.

The last of these carries the two before it over to both cutoffs together
(`Tree.Complete.search_nodes_both`, `Tree.Complete.search_nodes_narrower`).
-/

set_option autoImplicit false

namespace Noughts

variable {cfg cfg' : Pruning} {side : Side} {α β best score : Score}

/-! ## Two sweeps side by side -/

/-- What a sweep knows between two children. -/
structure Standing where
  α : Score
  β : Score
  /-- The best score so far. -/
  best : Score

namespace Standing

/-- What becomes of the sweep after a child with the given score. -/
def weigh (σ : Standing) (cfg : Pruning) (side : Side) (score : Score) : Verdict :=
  Noughts.weigh cfg side σ.α σ.β σ.best score

/-- The sweep goes on from here. -/
def resume (σ : Standing) : Verdict :=
  .resume σ.α σ.β σ.best

end Standing

namespace Tree

/-- **A sweep that stops no later enters no more nodes.**  `R` relates what the first sweep knows to
what the second one knows. -/
theorem searchAll_nodes_le {R : Standing → Standing → Prop} {ts : List Tree}
    (hnodes : ∀ t ∈ ts, ∀ σ σ', R σ σ' →
      (t.search cfg σ.α σ.β).nodes ≤ (t.search cfg' σ'.α σ'.β).nodes)
    (hstep : ∀ t ∈ ts, ∀ σ σ' τ, R σ σ' →
      σ.weigh cfg side (t.search cfg σ.α σ.β).score = τ.resume →
      ∃ τ', σ'.weigh cfg' side (t.search cfg' σ'.α σ'.β).score = τ'.resume ∧ R τ τ')
    {σ σ' : Standing} (h : R σ σ') :
    (searchAll cfg side ts σ.α σ.β σ.best).nodes
      ≤ (searchAll cfg' side ts σ'.α σ'.β σ'.best).nodes := by
  induction ts generalizing σ σ' with
  | nil => exact Nat.le_refl 0
  | cons t rest ih =>
    have hchild := hnodes t List.mem_cons_self σ σ' h
    rw [searchAll, searchAll]
    cases hv : Noughts.weigh cfg side σ.α σ.β σ.best (t.search cfg σ.α σ.β).score with
    | stop s =>
      -- The first sweep is over, and the second has entered the same child.
      cases Noughts.weigh cfg' side σ'.α σ'.β σ'.best (t.search cfg' σ'.α σ'.β).score with
      | stop s' => exact hchild
      | resume α' β' best' => exact hchild.trans (Nat.le_add_right _ _)
    | resume α₁ β₁ best₁ =>
      obtain ⟨τ', hgo, hR⟩ := hstep t List.mem_cons_self σ σ' ⟨α₁, β₁, best₁⟩ h hv
      rw [Standing.weigh, Standing.resume] at hgo
      have hrest := ih (fun u hu => hnodes u (List.mem_cons_of_mem _ hu))
        (fun u hu => hstep u (List.mem_cons_of_mem _ hu)) hR
      simp only [hgo]
      exact Nat.add_le_add hchild hrest

/-- Two searches of a fork compare as their sweeps do, from the seed on. -/
theorem search_fork_nodes_le {R : Standing → Standing → Prop} {children : List Tree}
    {α β α' β' : Score} (hstart : R ⟨α, β, side.seed⟩ ⟨α', β', side.seed⟩)
    (hnodes : ∀ t ∈ children, ∀ σ σ', R σ σ' →
      (t.search cfg σ.α σ.β).nodes ≤ (t.search cfg' σ'.α σ'.β).nodes)
    (hstep : ∀ t ∈ children, ∀ σ σ' τ, R σ σ' →
      σ.weigh cfg side (t.search cfg σ.α σ.β).score = τ.resume →
      ∃ τ', σ'.weigh cfg' side (t.search cfg' σ'.α σ'.β).score = τ'.resume ∧ R τ τ') :
    ((fork side children).search cfg α β).nodes
      ≤ ((fork side children).search cfg' α' β').nodes := by
  rw [search, search]
  exact Nat.add_le_add_left (searchAll_nodes_le hnodes hstep hstart) 1

/-! ## Each cutoff against none -/

/-- **No search enters more nodes than the one without cutoffs.** -/
theorem search_nodes_le_plain (cfg : Pruning) (t : Tree) (α β α' β' : Score) :
    (t.search cfg α β).nodes ≤ (t.search .plain α' β').nodes := by
  induction t generalizing α β α' β' with
  | leaf s => exact Nat.le_refl 1
  | fork side children ih =>
    refine search_fork_nodes_le (R := fun _ _ => True) trivial ?_ ?_
    · exact fun t ht σ σ' _ => ih t ht σ.α σ.β σ'.α σ'.β
    · -- Without cutoffs a sweep goes on whatever it finds.
      intro t _ _ σ' _ _ _
      exact ⟨⟨σ'.α, σ'.β, side.better _ σ'.best⟩, weigh_plain side _ _ _ _, trivial⟩

/-- **The decisive cutoff adds no node.**  Until it cuts, the two sweeps know the same. -/
theorem Complete.search_nodes_decisive {t : Tree} (h : t.Complete) (w : Bool) (α β : Score) :
    (t.search ⟨w, true⟩ α β).nodes ≤ (t.search ⟨w, false⟩ α β).nodes := by
  induction h generalizing α β with
  | leaf hs => exact Nat.le_refl 1
  | @fork side children _ hall ih =>
    refine search_fork_nodes_le
      (R := fun σ σ' => σ = σ' ∧ side.prefers side.goal σ.best = true)
      ⟨rfl, (IsOutcome.goal side).prefers_seed side⟩ ?_ ?_
    · rintro t ht σ _ ⟨rfl, _⟩
      exact ih t ht σ.α σ.β
    · rintro t ht σ _ τ ⟨rfl, hbest⟩ hgo
      rw [Standing.weigh, (hall t ht).search_decisive] at hgo
      rcases weigh_decisive w σ.α σ.β ((hall t ht).search_score ⟨w, false⟩ σ.α σ.β) hbest with
        ⟨heq, hnext⟩ | ⟨hcut, _⟩
      · rw [heq] at hgo
        exact ⟨τ, hgo, rfl, hnext _ _ _ hgo⟩
      · rw [hcut] at hgo
        cases hgo

end Tree

/-! ## A sweep with window pruning -/

namespace Standing

variable {σ τ : Standing}

/-- The score lies at the far end of the window or beyond it, where the mover stops looking. -/
def Reached (σ : Standing) (side : Side) (score : Score) : Prop :=
  match side with
  | .maximizer => σ.β ≤ score
  | .minimizer => score ≤ σ.α

/-- What the sweep knows after one more score: the near end of the window has moved up to it. -/
def narrow (σ : Standing) (side : Side) (score : Score) : Standing :=
  match side with
  | .maximizer => ⟨max σ.α score, σ.β, max score σ.best⟩
  | .minimizer => ⟨σ.α, min score σ.β, min score σ.best⟩

/-- Before the first child the best score is the seed.  Afterwards the near end of the window has
come at least as far as the best score, and the best score has not come to the far end. -/
def OnCourse (σ : Standing) (side : Side) : Prop :=
  match side with
  | .maximizer => σ.best = Score.bottom ∨ σ.best ≤ σ.α ∧ σ.best < σ.β
  | .minimizer => σ.best = Score.top ∨ σ.β ≤ σ.best ∧ σ.α < σ.best

theorem onCourse_seed (side : Side) (α β : Score) : OnCourse ⟨α, β, side.seed⟩ side := by
  cases side <;> exact Or.inl rfl

/-- **One weighing on course**: the sweep stops exactly at a score at the far end, and otherwise
narrows the window and stays on course. -/
theorem weigh_onCourse (h : σ.OnCourse side) (hs : IsOutcome score) :
    (σ.Reached side score ∧ σ.weigh .windowed side score = .stop score)
      ∨ (¬ σ.Reached side score ∧ σ.weigh .windowed side score = (σ.narrow side score).resume
        ∧ (σ.narrow side score).OnCourse side) := by
  cases side with
  | maximizer =>
    have hseed : Score.bottom < score := of_decide_eq_true (hs.prefers_seed .maximizer)
    simp only [OnCourse, Reached, narrow, weigh, resume, weigh_maximizer] at h ⊢
    by_cases hβ : σ.β ≤ score
    · have hbest : σ.best < score := by grind
      exact Or.inl ⟨hβ, by rw [if_pos hbest, if_pos hβ]⟩
    · refine Or.inr ⟨hβ, ?_, Or.inr (by grind)⟩
      by_cases hbest : σ.best < score
      · rw [if_pos hbest, if_neg hβ, max_eq_left hbest.le]
      · -- A score that is no improvement lies below the near end.
        rw [if_neg hbest, max_eq_right (not_lt.mp hbest), max_eq_left (by grind : score ≤ σ.α)]
  | minimizer =>
    have hseed : score < Score.top := of_decide_eq_true (hs.prefers_seed .minimizer)
    simp only [OnCourse, Reached, narrow, weigh, resume, weigh_minimizer] at h ⊢
    by_cases hα : score ≤ σ.α
    · have hbest : score < σ.best := by grind
      exact Or.inl ⟨hα, by rw [if_pos hbest, if_pos hα]⟩
    · refine Or.inr ⟨hα, ?_, Or.inr (by grind)⟩
      by_cases hbest : score < σ.best
      · rw [if_pos hbest, if_neg hα, min_eq_left hbest.le]
      · rw [if_neg hbest, min_eq_right (not_lt.mp hbest), min_eq_right (by grind : σ.β ≤ score)]

theorem resume_inj (h : σ.resume = τ.resume) : σ = τ := by
  cases σ
  cases τ
  cases h
  rfl

/-- A sweep on course that goes on has not reached the far end, and is on course again. -/
theorem OnCourse.of_resume (h : σ.OnCourse side) (hs : IsOutcome score)
    (hgo : σ.weigh .windowed side score = τ.resume) :
    ¬ σ.Reached side score ∧ τ = σ.narrow side score ∧ τ.OnCourse side := by
  rcases weigh_onCourse h hs with ⟨_, hstop⟩ | ⟨hr, hw, hc⟩
  · rw [hstop] at hgo
    cases hgo
  · obtain rfl := resume_inj (hgo.symm.trans hw)
    exact ⟨hr, rfl, hc⟩

end Standing

/-! ## A window inside another -/

/-- What two sweeps with window pruning know, the one in a window inside the other's. -/
structure Nested (side : Side) (σ σ' : Standing) : Prop where
  lower : σ'.α ≤ σ.α
  upper : σ.β ≤ σ'.β
  /-- The outer window is not empty. -/
  apart : σ'.α < σ'.β
  inner : σ.OnCourse side
  outer : σ'.OnCourse side

/-- **Nested windows stay nested.**  Both scores bracket the value `v` of one child, each in its own
window.  So as long as the inner score stays short of the far end, the outer score stays short of
it as well, and the outer window is narrowed no further than the inner one. -/
theorem Nested.narrow {σ σ' : Standing} {r r' v : Score} (h : Nested side σ σ')
    (hr : IsOutcome r) (hr' : IsOutcome r') (hb : Brackets σ.α σ.β r v)
    (hb' : Brackets σ'.α σ'.β r' v) (hgo : ¬ σ.Reached side r) :
    ¬ σ'.Reached side r' ∧ Nested side (σ.narrow side r) (σ'.narrow side r') := by
  obtain ⟨hlower, hupper, hapart, hinner, houter⟩ := h
  have hnext := (Standing.weigh_onCourse hinner hr).resolve_left fun hc => hgo hc.1
  suffices hmain : ¬ σ'.Reached side r' ∧ (σ'.narrow side r').α ≤ (σ.narrow side r).α
      ∧ (σ.narrow side r).β ≤ (σ'.narrow side r').β
      ∧ (σ'.narrow side r').α < (σ'.narrow side r').β by
    obtain ⟨hgo', hα, hβ, hlt⟩ := hmain
    have hnext' := (Standing.weigh_onCourse houter hr').resolve_left fun hc => hgo' hc.1
    exact ⟨hgo', hα, hβ, hlt, hnext.2.2, hnext'.2.2⟩
  cases side with
  | maximizer =>
    have hshort : r < σ.β := not_le.mp hgo
    have hle : σ'.α < r' → r' ≤ r := fun hα => (hb'.lower hα).trans (hb.upper hshort)
    have hshort' : r' < σ'.β := not_le.mp fun hreach =>
      absurd (hreach.trans (hle (hapart.trans_le hreach))) (not_le.mpr (hshort.trans_le hupper))
    have hnear : r' ≤ max σ.α r := by
      rcases le_or_gt r' σ'.α with hα | hα
      · exact le_max_of_le_left (hα.trans hlower)
      · exact le_max_of_le_right (hle hα)
    exact ⟨not_le.mpr hshort', max_le (le_max_of_le_left hlower) hnear, hupper,
      max_lt hapart hshort'⟩
  | minimizer =>
    have hshort : σ.α < r := not_le.mp hgo
    have hle : r' < σ'.β → r ≤ r' := fun hβ => (hb.lower hshort).trans (hb'.upper hβ)
    have hshort' : σ'.α < r' := not_le.mp fun hreach =>
      absurd ((hle (hreach.trans_lt hapart)).trans hreach) (not_le.mpr (hlower.trans_lt hshort))
    have hnear : min r σ.β ≤ r' := by
      rcases le_or_gt σ'.β r' with hβ | hβ
      · exact min_le_of_right_le (hupper.trans hβ)
      · exact min_le_of_left_le (hle hβ)
    exact ⟨not_le.mpr hshort', hlower, le_min hnear (min_le_of_right_le hupper),
      lt_min hshort' hapart⟩

namespace Tree

/-- **In a window inside another a search enters no more nodes**, with window pruning. -/
theorem Complete.search_nodes_nested {t : Tree} (h : t.Complete) {α β α' β' : Score}
    (hα : α' ≤ α) (hβ : β ≤ β') (hw : α' < β') :
    (t.search .windowed α β).nodes ≤ (t.search .windowed α' β').nodes := by
  induction h generalizing α β α' β' with
  | leaf hs => exact Nat.le_refl 1
  | @fork side children _ hall ih =>
    refine search_fork_nodes_le (R := Nested side)
      ⟨hα, hβ, hw, Standing.onCourse_seed side α β, Standing.onCourse_seed side α' β'⟩ ?_ ?_
    · exact fun t ht σ σ' hn => ih t ht hn.lower hn.upper hn.apart
    · intro t ht σ σ' τ hn hgo
      have ho : ∀ α β, IsOutcome (t.search .windowed α β).score :=
        (hall t ht).search_score .windowed
      obtain ⟨hshort, rfl, _⟩ := hn.inner.of_resume (ho _ _) hgo
      obtain ⟨hshort', hnext⟩ := hn.narrow (ho _ _) (ho σ'.α σ'.β) (t.search_window σ.α σ.β)
        (t.search_window σ'.α σ'.β) hshort
      rcases Standing.weigh_onCourse hn.outer (ho σ'.α σ'.β) with ⟨hreach, _⟩ | ⟨_, hgo', _⟩
      · exact absurd hreach hshort'
      · exact ⟨_, hgo', hnext⟩

end Tree

/-! ## A window between the goals -/

/-- In a window between the goals, the score of a child that is worth the goal lies at the far
end. -/
theorem Brackets.reached_goal {σ : Standing} {r : Score} (hb : Brackets σ.α σ.β r side.goal)
    (hα : Score.lose ≤ σ.α) (hβ : σ.β ≤ Score.win) : σ.Reached side r := by
  cases side with
  | maximizer =>
    refine not_lt.mp fun hlt => ?_
    exact absurd (hβ.trans (hb.upper hlt)) (not_le.mpr hlt)
  | minimizer =>
    refine not_lt.mp fun hlt => ?_
    exact absurd ((hb.lower hlt).trans hα) (not_le.mpr hlt)

namespace Tree

/-- **Between the goals, window pruning enters no more nodes than the decisive cutoff.**  The
decisive cutoff stops at a child that is worth the goal, and there the score with window pruning
has reached the far end. -/
theorem Complete.search_nodes_between {t : Tree} (h : t.Complete) {α β : Score}
    (hα : Score.lose ≤ α) (hβ : β ≤ Score.win) (α' β' : Score) :
    (t.search .windowed α β).nodes ≤ (t.search ⟨false, true⟩ α' β').nodes := by
  induction h generalizing α β α' β' with
  | leaf hs => exact Nat.le_refl 1
  | @fork side children _ hall ih =>
    refine search_fork_nodes_le
      (R := fun σ _ => Score.lose ≤ σ.α ∧ σ.β ≤ Score.win ∧ σ.OnCourse side)
      ⟨hα, hβ, Standing.onCourse_seed side α β⟩ ?_ ?_
    · exact fun t ht σ σ' hn => ih t ht hn.1 hn.2.1 σ'.α σ'.β
    · rintro t ht σ σ' τ ⟨hα, hβ, hcourse⟩ hgo
      obtain ⟨hshort, rfl, hnext⟩ :=
        hcourse.of_resume ((hall t ht).search_score .windowed σ.α σ.β) hgo
      have hvalue : (t.search ⟨false, true⟩ σ'.α σ'.β).score = t.value := by
        rw [(hall t ht).search_decisive, search_plain]
      have hne : t.value ≠ side.goal := fun hgoal =>
        hshort ((hgoal ▸ t.search_window σ.α σ.β).reached_goal hα hβ)
      refine ⟨⟨σ'.α, σ'.β, side.better t.value σ'.best⟩, ?_, ?_⟩
      · rw [hvalue, Standing.weigh, weigh_decisive_of_ne false hne]
        exact weigh_plain side σ'.α σ'.β σ'.best t.value
      · cases side with
        | maximizer => exact ⟨hα.trans (le_max_left _ _), hβ, hnext⟩
        | minimizer => exact ⟨hα, (min_le_right _ _).trans hβ, hnext⟩

end Tree

/-! ## The decisive cutoff as window pruning -/

/-- A score, or the nearer of the two goals if it lies outside of them. -/
def Score.clamp (s : Score) : Score :=
  max Score.lose (min s Score.win)

namespace Score

variable {s t : Score}

theorem clamp_mono (h : s ≤ t) : s.clamp ≤ t.clamp :=
  max_le_max_left lose (min_le_min_right win h)

theorem lose_le_clamp (s : Score) : lose ≤ s.clamp :=
  le_max_left lose _

theorem clamp_le_win (s : Score) : s.clamp ≤ win :=
  max_le (by decide) (min_le_right s win)

theorem clamp_of_win_le (h : win ≤ s) : s.clamp = win := by
  rw [clamp, min_eq_right h]
  exact max_eq_right (by decide)

theorem clamp_of_le_lose (h : s ≤ lose) : s.clamp = lose :=
  max_eq_left ((min_le_left s win).trans h)

/-- A window that starts below a win and ends above a loss is not emptied by drawing it in. -/
theorem clamp_lt_clamp (hs : s < win) (ht : lose < t) (h : s < t) : s.clamp < t.clamp := by
  rw [clamp, clamp, min_eq_left hs.le]
  exact max_lt (lt_max_of_lt_right (lt_min ht (by decide)))
    (lt_max_of_lt_right (lt_min h hs))

/-- Drawing in the far end of a maximizer's window moves it past no score but a win. -/
theorem clamp_le_iff (hs : IsOutcome s) (hne : s ≠ win) : t.clamp ≤ s ↔ t ≤ s := by
  have hlt : ¬ win ≤ s := not_le.mpr (lt_of_le_of_ne hs.le_win hne)
  simp only [clamp, max_le_iff, min_le_iff, hs.lose_le, hlt, true_and, or_false]

/-- Drawing in the far end of a minimizer's window moves it past no score but a loss. -/
theorem le_clamp_iff (hs : IsOutcome s) (hne : s ≠ lose) : s ≤ t.clamp ↔ s ≤ t := by
  have hlt : ¬ s ≤ lose := not_le.mpr (lt_of_le_of_ne hs.lose_le hne.symm)
  simp only [clamp, le_max_iff, le_min_iff, hs.le_win, hlt, false_or, and_true]

/-- It does not matter whether a window is drawn in before it is narrowed to an outcome or after. -/
theorem clamp_max (hs : IsOutcome s) : (max t s).clamp = max t.clamp s := by
  rw [clamp, clamp, min_max_distrib_right, min_eq_left hs.le_win, max_assoc]

theorem clamp_min (hs : IsOutcome s) : (min s t).clamp = min s t.clamp := by
  rw [clamp, clamp, min_assoc, max_min_distrib_left, max_eq_right hs.lose_le]

end Score

namespace Standing

variable {σ : Standing}

/-- The standing with the ends of the window drawn in to the goals. -/
def clamp (σ : Standing) : Standing :=
  ⟨σ.α.clamp, σ.β.clamp, σ.best⟩

/-- A score short of the goal makes no difference between the two windows. -/
theorem weigh_clamp_of_ne (hs : IsOutcome score) (hne : score ≠ side.goal) :
    (∃ s, σ.weigh .windowed side score = .stop s ∧ σ.clamp.weigh .windowed side score = .stop s)
      ∨ ∃ τ : Standing, σ.weigh .windowed side score = τ.resume
        ∧ σ.clamp.weigh .windowed side score = τ.clamp.resume := by
  cases side with
  | maximizer =>
    simp only [weigh, clamp, weigh_maximizer, Score.clamp_le_iff hs hne]
    by_cases hbest : σ.best < score
    · by_cases hβ : σ.β ≤ score
      · exact Or.inl ⟨score, by rw [if_pos hbest, if_pos hβ], by rw [if_pos hbest, if_pos hβ]⟩
      · refine Or.inr ⟨⟨max σ.α score, σ.β, score⟩, by rw [if_pos hbest, if_neg hβ, resume], ?_⟩
        rw [if_pos hbest, if_neg hβ, resume, Score.clamp_max hs]
    · exact Or.inr ⟨σ, by rw [if_neg hbest, resume], by rw [if_neg hbest, resume]⟩
  | minimizer =>
    simp only [weigh, clamp, weigh_minimizer, Score.le_clamp_iff hs hne]
    by_cases hbest : score < σ.best
    · by_cases hα : score ≤ σ.α
      · exact Or.inl ⟨score, by rw [if_pos hbest, if_pos hα], by rw [if_pos hbest, if_pos hα]⟩
      · refine Or.inr ⟨⟨σ.α, min score σ.β, score⟩, by rw [if_pos hbest, if_neg hα, resume], ?_⟩
        rw [if_pos hbest, if_neg hα, resume, Score.clamp_min hs]
    · exact Or.inr ⟨σ, by rw [if_neg hbest, resume], by rw [if_neg hbest, resume]⟩

/-- The goal lies at the far end of a window that has been drawn in. -/
theorem weigh_clamp_goal (hbest : side.prefers side.goal σ.best = true) :
    σ.clamp.weigh .windowed side side.goal = .stop side.goal := by
  cases side with
  | maximizer =>
    have hend : σ.clamp.β ≤ Side.goal .maximizer := Score.clamp_le_win σ.β
    have hshort : σ.clamp.best < Side.goal .maximizer := of_decide_eq_true hbest
    rw [weigh, weigh_maximizer, if_pos hshort, if_pos hend]
  | minimizer =>
    have hend : Side.goal .minimizer ≤ σ.clamp.α := Score.lose_le_clamp σ.α
    have hshort : Side.goal .minimizer < σ.clamp.best := of_decide_eq_true hbest
    rw [weigh, weigh_minimizer, if_pos hshort, if_pos hend]

/-- **One weighing with the decisive cutoff** is one without it, in the window that has been drawn
in to the goals. -/
theorem weigh_clamp (hs : IsOutcome score) (hbest : side.prefers side.goal σ.best = true) :
    (∃ s, σ.weigh ⟨true, true⟩ side score = .stop s ∧ σ.clamp.weigh .windowed side score = .stop s)
      ∨ ∃ τ : Standing, σ.weigh ⟨true, true⟩ side score = τ.resume
        ∧ σ.clamp.weigh .windowed side score = τ.clamp.resume
        ∧ side.prefers side.goal τ.best = true := by
  by_cases hg : score = side.goal
  · subst hg
    exact Or.inl ⟨side.goal, weigh_decisive_goal true, weigh_clamp_goal hbest⟩
  · have heq : σ.weigh ⟨true, true⟩ side score = σ.weigh .windowed side score :=
      weigh_decisive_of_ne true hg
    rw [heq]
    refine (weigh_clamp_of_ne hs hg).imp_right ?_
    rintro ⟨τ, hgo, hclamp⟩
    exact ⟨τ, hgo, hclamp, prefers_goal_of_resume hs hg hbest hgo⟩

end Standing

namespace Tree

theorem searchAll_clamp {ts : List Tree}
    (ho : ∀ t ∈ ts, ∀ α β, IsOutcome (t.search .windowed α β).score)
    (h : ∀ t ∈ ts, ∀ α β, t.search ⟨true, true⟩ α β = t.search .windowed α.clamp β.clamp)
    (σ : Standing) (hbest : side.prefers side.goal σ.best = true) :
    searchAll ⟨true, true⟩ side ts σ.α σ.β σ.best
      = searchAll .windowed side ts σ.clamp.α σ.clamp.β σ.clamp.best := by
  induction ts generalizing σ with
  | nil => rfl
  | cons t rest ih =>
    have ih := @ih (fun u hu => ho u (List.mem_cons_of_mem _ hu))
      (fun u hu => h u (List.mem_cons_of_mem _ hu))
    have hchild : t.search ⟨true, true⟩ σ.α σ.β = t.search .windowed σ.clamp.α σ.clamp.β :=
      h t List.mem_cons_self σ.α σ.β
    rw [searchAll, searchAll, hchild]
    rcases Standing.weigh_clamp (ho t List.mem_cons_self σ.clamp.α σ.clamp.β) hbest with
      ⟨s, hstop, hstop'⟩ | ⟨τ, hgo, hgo', hnext⟩
    · rw [Standing.weigh] at hstop hstop'
      simp only [hstop, hstop']
    · rw [Standing.weigh, Standing.resume] at hgo hgo'
      simp only [hgo, hgo', ih τ hnext]

/-- **The decisive cutoff on top of window pruning** is window pruning in the window drawn in to the
goals: the same score, and the same nodes. -/
theorem Complete.search_eq_windowed {t : Tree} (h : t.Complete) (α β : Score) :
    t.search ⟨true, true⟩ α β = t.search .windowed α.clamp β.clamp := by
  induction h generalizing α β with
  | leaf hs => rw [search, search]
  | @fork side children _ hall ih =>
    have hsweep := searchAll_clamp (fun t ht => (hall t ht).search_score .windowed) ih
      ⟨α, β, side.seed⟩ ((IsOutcome.goal side).prefers_seed side)
    rw [search, search, hsweep]
    rfl

/-- **With both cutoffs on, no more nodes than with the decisive one alone.** -/
theorem Complete.search_nodes_both {t : Tree} (h : t.Complete) (α β α' β' : Score) :
    (t.search ⟨true, true⟩ α β).nodes ≤ (t.search ⟨false, true⟩ α' β').nodes := by
  rw [h.search_eq_windowed]
  exact h.search_nodes_between (Score.lose_le_clamp α) (Score.clamp_le_win β) α' β'

/-- **A narrower window never costs more**, with the decisive cutoff on or off. -/
theorem Complete.search_nodes_narrower {t : Tree} (h : t.Complete) (d : Bool) {α β α' β' : Score}
    (hα : α' ≤ α) (hw : α < β) (hβ : β ≤ β') :
    (t.search ⟨true, d⟩ α β).nodes ≤ (t.search ⟨true, d⟩ α' β').nodes := by
  cases d with
  | false => exact h.search_nodes_nested hα hβ ((hα.trans_lt hw).trans_le hβ)
  | true =>
    rw [h.search_eq_windowed, h.search_eq_windowed]
    rcases lt_or_ge α' Score.win with hlo | hlo
    · rcases lt_or_ge Score.lose β' with hhi | hhi
      · have hapart := Score.clamp_lt_clamp hlo hhi ((hα.trans_lt hw).trans_le hβ)
        exact h.search_nodes_nested (Score.clamp_mono hα) (Score.clamp_mono hβ) hapart
      · -- Both windows end at a loss or below it, and are drawn in to the same empty one.
        have hβlose : β ≤ Score.lose := hβ.trans hhi
        have hαlose : α ≤ Score.lose := hw.le.trans hβlose
        rw [Score.clamp_of_le_lose hαlose, Score.clamp_of_le_lose hβlose,
          Score.clamp_of_le_lose (hα.trans hαlose), Score.clamp_of_le_lose hhi]
    · -- Both windows start at a win or above it.
      have hαwin : Score.win ≤ α := hlo.trans hα
      have hβwin : Score.win ≤ β := hαwin.trans hw.le
      rw [Score.clamp_of_win_le hαwin, Score.clamp_of_win_le hβwin, Score.clamp_of_win_le hlo,
        Score.clamp_of_win_le (hβwin.trans hβ)]

end Tree

end Noughts
