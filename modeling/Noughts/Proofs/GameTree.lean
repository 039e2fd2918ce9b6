import Noughts.Search
import Mathlib.Data.Int.Order.Basic
import Mathlib.Order.MinMax

/-!
# Game trees, and how the search walks them

Most of what there is to say about the two cutoffs has nothing to do with boards.  Here a game is
a finite tree: a leaf is a score, and a fork is a side to move with the trees it can move to.

* `Tree.value` and `Tree.size` are the specification: the best score that the mover can force and
  the number of nodes, with nothing left out.
* `Tree.search` walks the tree as a search does, weighing each child with the same `weigh`, and
  counts the nodes it enters.
* `Tree.search_plain`: with both cutoffs off the walk computes the specification, in any window.

A fork without children is worth the seed of its side.  No game has such a fork, but a search can
be started where one occurs, and then the seed comes out as a score.
-/

set_option autoImplicit false

namespace Noughts

/-- A finite game between the two sides. -/
inductive Tree where
  /-- The game is over. -/
  | leaf (score : Score)
  /-- A side has to move, and these are the games it can move to. -/
  | fork (side : Side) (children : List Tree)

/-- What a walk through a tree finds. -/
structure Finding where
  score : Score
  /-- The nodes entered, the root included. -/
  nodes : Nat
  deriving DecidableEq

namespace Pruning

/-- Both cutoffs off. -/
abbrev plain : Pruning := ⟨false, false⟩

/-- Window pruning on, the decisive cutoff off. -/
abbrev windowed : Pruning := ⟨true, false⟩

end Pruning

namespace Side

/-- The score that a side would rather have. -/
def better : Side → Score → Score → Score
  | maximizer, s, t => max s t
  | minimizer, s, t => min s t

theorem better_comm (side : Side) (s t : Score) : side.better s t = side.better t s := by
  cases side
  · exact Int.max_comm s t
  · exact Int.min_comm s t

theorem better_assoc (side : Side) (s t u : Score) :
    side.better (side.better s t) u = side.better s (side.better t u) := by
  cases side
  · exact Int.max_assoc s t u
  · exact Int.min_assoc s t u

instance (side : Side) : Std.Commutative side.better := ⟨side.better_comm⟩

instance (side : Side) : Std.Associative side.better := ⟨side.better_assoc⟩

theorem better_self (side : Side) (s : Score) : side.better s s = s := by
  cases side
  · exact Int.max_self s
  · exact Int.min_self s

/-- A score to start from can be thrown in at either end. -/
theorem foldr_better (side : Side) (s start : Score) (scores : List Score) :
    scores.foldr side.better (side.better s start)
      = side.better s (scores.foldr side.better start) := by
  rw [side.better_comm s start, List.foldr_assoc, side.better_comm]

/-- Recording a score only when it is preferred keeps the better of the two. -/
theorem better_eq_ite (side : Side) (s best : Score) :
    side.better s best = if side.prefers s best then s else best := by
  cases side with
  | maximizer =>
    simp only [better, prefers, decide_eq_true_eq]
    split
    · next h => exact max_eq_left h.le
    · next h => exact max_eq_right (not_lt.mp h)
  | minimizer =>
    simp only [better, prefers, decide_eq_true_eq]
    split
    · next h => exact min_eq_left h.le
    · next h => exact min_eq_right (not_lt.mp h)

end Side

namespace Tree

/-- Induction on trees: what holds of a fork as soon as it holds of its children holds of every
tree. -/
@[elab_as_elim, induction_eliminator]
theorem induction {P : Tree → Prop} (leaf : ∀ s, P (leaf s))
    (fork : ∀ side children, (∀ t ∈ children, P t) → P (fork side children)) : ∀ t, P t
  | .leaf s => leaf s
  | .fork side children => fork side children fun t _ => induction leaf fork t

/-! ## The specification -/

mutual

/-- **The value of a game**: what comes out when both sides play their best. -/
def value : Tree → Score
  | leaf s => s
  | fork side children => bestOf side side.seed children

/-- The best of a score and the values of some games. -/
def bestOf (side : Side) (start : Score) : List Tree → Score
  | [] => start
  | t :: rest => side.better t.value (bestOf side start rest)

end

mutual

/-- The nodes of a tree. -/
def size : Tree → Nat
  | leaf _ => 1
  | fork _ children => 1 + sizeAll children

/-- The nodes of some trees together. -/
def sizeAll : List Tree → Nat
  | [] => 0
  | t :: rest => t.size + sizeAll rest

end

theorem bestOf_eq_foldr (side : Side) (start : Score) (ts : List Tree) :
    bestOf side start ts = (ts.map value).foldr side.better start := by
  induction ts with
  | nil => rfl
  | cons t rest ih => rw [bestOf, ih, List.map_cons, List.foldr_cons]

theorem sizeAll_eq_foldr (ts : List Tree) : sizeAll ts = (ts.map size).foldr (· + ·) 0 := by
  induction ts with
  | nil => rfl
  | cons t rest ih => rw [sizeAll, ih, List.map_cons, List.foldr_cons]

theorem bestOf_better (side : Side) (s start : Score) (ts : List Tree) :
    bestOf side (side.better s start) ts = side.better s (bestOf side start ts) := by
  rw [bestOf_eq_foldr, bestOf_eq_foldr, side.foldr_better]

/-! ## The walk -/

mutual

/-- **A search of the tree** in a window. -/
def search (cfg : Pruning) : Tree → Score → Score → Finding
  | leaf s, _, _ => ⟨s, 1⟩
  | fork side children, α, β =>
    let found := searchAll cfg side children α β side.seed
    ⟨found.score, 1 + found.nodes⟩

/-- The games that a side has yet to look at, searched one after the other. -/
def searchAll (cfg : Pruning) (side : Side) : List Tree → Score → Score → Score → Finding
  | [], _, _, best => ⟨best, 0⟩
  | t :: rest, α, β, best =>
    let below := t.search cfg α β
    match weigh cfg side α β best below.score with
    | .stop s => ⟨s, below.nodes⟩
    | .resume α' β' best' =>
      let found := searchAll cfg side rest α' β' best'
      ⟨found.score, below.nodes + found.nodes⟩

end

theorem weigh_plain (side : Side) (α β best score : Score) :
    weigh .plain side α β best score = .resume α β (side.better score best) := by
  rw [weigh.eq_def, side.better_eq_ite]
  cases side.prefers score best <;> simp

theorem searchAll_plain {side : Side} {ts : List Tree}
    (h : ∀ t ∈ ts, ∀ α β, t.search .plain α β = ⟨t.value, t.size⟩) (α β best : Score) :
    searchAll .plain side ts α β best = ⟨bestOf side best ts, sizeAll ts⟩ := by
  induction ts generalizing best with
  | nil => rfl
  | cons t rest ih =>
    rw [searchAll, h t List.mem_cons_self]
    simp only [weigh_plain]
    rw [ih fun u hu => h u (List.mem_cons_of_mem _ hu), bestOf_better, bestOf, sizeAll]

/-- **With both cutoffs off, a search finds the value and enters every node**, whatever the
window. -/
theorem search_plain (t : Tree) (α β : Score) : t.search .plain α β = ⟨t.value, t.size⟩ := by
  induction t generalizing α β with
  | leaf s => rfl
  | fork side children ih =>
    rw [search, searchAll_plain fun t ht => ih t ht, value, size]

end Tree

end Noughts
