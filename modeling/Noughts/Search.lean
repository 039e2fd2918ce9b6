import Noughts.Lines

/-!
# The search

Exact minimax over the remaining moves of a game, with two ways of cutting it short that can be
switched on and off independently (`Pruning`).

A *call* of the search takes a board, the window `α … β` of scores that still matter, the depth,
and the move that was just played.  It is decided at once when the line test finds an owner or the
depth says that the board is full (`verdict`).  Otherwise it sweeps the nine cells in ascending
order, plays the mover's piece on each empty one, calls itself there, and takes the piece back.

Whose turn it is comes from the depth alone: at odd depth a cross moves and the score is
maximised, at even depth a nought moves and the score is minimised.  The opening cross is already
on the board at depth `0`.

Three choices make the search a plain function.

* **One board, handed on.**  Every call answers with the board as it left it (`Outcome.board`).
  That the board comes back unchanged is a theorem about the search and not part of its type; a
  call that meets a fault leaves the pieces it had placed.
* **The call is written once, over an arbitrary way of scoring children.**  `node` is one call,
  with the call below it as a parameter, and `sweep` is its loop.  Facts about one level are facts
  about `node`; the recursion adds nothing but an induction.
* **The nesting is bounded by the empty cells.**  `nest` stacks a given number of calls, and
  `minimax` stacks one more than there are empty cells to fill, so the calls never run out.

The scores are ranks: only their order means anything.
-/

set_option autoImplicit false

namespace Noughts

/-! ## Scores -/

/-- The rank of an outcome, from the first player's point of view. -/
abbrev Score := Int

namespace Score

/-- A cross completes a line. -/
abbrev win : Score := 6

/-- The board is full and nobody owns a line. -/
abbrev tie : Score := 5

/-- Another piece completes a line. -/
abbrev lose : Score := 4

/-- Above every outcome: where a minimum starts. -/
abbrev top : Score := 9

/-- Below every outcome: where a maximum starts. -/
abbrev bottom : Score := 2

/-- The name of an outcome; any other rank goes by its number. -/
def name (s : Score) : String :=
  if s = win then "win" else if s = tie then "tie" else if s = lose then "lose" else toString s

end Score

/-- No line can be complete before this depth. -/
abbrev firstLineDepth : Int := 4

/-- At this depth the board is full. -/
abbrev fullDepth : Int := 8

/-! ## Configuration and outcome -/

/-- Which cutoffs are on. -/
structure Pruning where
  /-- Stop when the score leaves the window. -/
  window : Bool := true
  /-- Stop at the best score there is. -/
  decisive : Bool := true
  deriving DecidableEq, Repr

/-- What one call leaves behind. -/
structure Outcome where
  /-- The score, or the fault that ended the call. -/
  score : Except Fault Score
  /-- The calls made, this one included. -/
  nodes : Nat
  /-- The board afterwards. -/
  board : Board
  deriving Repr

/-- The outcome with some more calls on the bill. -/
def Outcome.charge (n : Nat) (o : Outcome) : Outcome :=
  ⟨o.score, n + o.nodes, o.board⟩

/-- A way of scoring a position: board, window, depth, last move. -/
abbrev Scorer := Board → Score → Score → Int → Int → Outcome

/-! ## One call -/

/-- The player to move. -/
inductive Side where
  /-- A cross moves and the score is maximised. -/
  | maximizer
  /-- A nought moves and the score is minimised. -/
  | minimizer
  deriving DecidableEq, Repr

namespace Side

/-- The mover at a given depth. -/
def atDepth (depth : Int) : Side :=
  if depth % 2 = 1 then maximizer else minimizer

/-- The piece that the mover places. -/
def piece : Side → Cell
  | maximizer => Cell.cross
  | minimizer => Cell.nought

/-- The value of a position before any of its moves has been looked at. -/
def seed : Side → Score
  | maximizer => Score.bottom
  | minimizer => Score.top

/-- The outcome that no other move can better. -/
def goal : Side → Score
  | maximizer => Score.win
  | minimizer => Score.lose

/-- Is the first score better for the mover than the second? -/
def prefers : Side → Score → Score → Bool
  | maximizer, s, v => decide (v < s)
  | minimizer, s, v => decide (s < v)

end Side

/-- How a sweep goes on after a child has been scored. -/
inductive Verdict where
  /-- The call ends with this score. -/
  | stop (score : Score)
  /-- The sweep goes on with this window and this best score so far. -/
  | resume (α β best : Score)
  deriving DecidableEq, Repr

/-- Weighs a child's score.  The decisive cutoff looks at the score alone and comes first; a
better score is then recorded, and with window pruning on it either leaves the window, which ends
the call, or narrows it. -/
def weigh (cfg : Pruning) (side : Side) (α β best score : Score) : Verdict :=
  if cfg.decisive && decide (score = side.goal) then .stop side.goal
  else if side.prefers score best then
    if cfg.window then
      match side with
      | .maximizer =>
        if β ≤ score then .stop score else .resume (if α < score then score else α) β score
      | .minimizer =>
        if score ≤ α then .stop score else .resume α (if score < β then score else β) score
    else .resume α β score
  else .resume α β best

/-- The cells a sweep has yet to try, played one after the other. -/
def sweep (cfg : Pruning) (child : Scorer) (depth : Int) :
    List Nat → Board → Score → Score → Score → Outcome
  | [], b, _, _, best => ⟨.ok best, 0, b⟩
  | cell :: rest, b, α, β, best =>
    match b[cell]? with
    | none => ⟨.error (.absent .cells), 0, b⟩
    | some c =>
      if c = Cell.empty then
        let side := Side.atDepth depth
        let below := child (b.set cell side.piece) α β (depth + 1) cell
        match below.score with
        | .error f => ⟨.error f, below.nodes, below.board⟩
        | .ok score =>
          let restored := below.board.set cell Cell.empty
          match weigh cfg side α β best score with
          | .stop s => ⟨.ok s, below.nodes, restored⟩
          | .resume α' β' best' =>
            (sweep cfg child depth rest restored α' β' best').charge below.nodes
      else sweep cfg child depth rest b α β best

/-- The score of a position that needs no further move, if it is one.  No line is looked for
before `firstLineDepth`, and the board counts as full at `fullDepth` exactly. -/
def verdict (b : Board) (depth move : Int) : Except Fault (Option Score) :=
  if depth < firstLineDepth then .ok none
  else
    match winnerThrough b move with
    | .error f => .error f
    | .ok p =>
      if p = Cell.empty then .ok (if depth = fullDepth then some Score.tie else none)
      else .ok (some (if p = Cell.cross then Score.win else Score.lose))

/-- The nine cells in the order in which they are tried. -/
def cellOrder : List Nat := [0, 1, 2, 3, 4, 5, 6, 7, 8]

/-- **One call of the search**, given how the calls below it are scored. -/
def node (cfg : Pruning) (child : Scorer) : Scorer := fun b α β depth move =>
  match verdict b depth move with
  | .error f => ⟨.error f, 1, b⟩
  | .ok (some s) => ⟨.ok s, 1, b⟩
  | .ok none => (sweep cfg child depth cellOrder b α β (Side.atDepth depth).seed).charge 1

/-! ## The recursion -/

/-- Calls nested `n` deep, with `ground` below them. -/
def nest (cfg : Pruning) (ground : Scorer) : Nat → Scorer
  | 0 => ground
  | n + 1 => fun b α β depth move => node cfg (nest cfg ground n) b α β depth move

/-- What stands below the last call of a search that has room for all its moves: nothing. -/
def noCall : Scorer := fun b _ _ _ _ => ⟨.ok Score.tie, 0, b⟩

/-- The empty cells among the nine. -/
def room (b : Board) : Nat :=
  (b.take 9).count Cell.empty

/-- **The search**: the score of `b` after `move` was played at `depth`, the number of calls it
took, and the board it leaves. -/
def minimax (cfg : Pruning) (b : Board) (α β : Score) (depth move : Int) : Outcome :=
  nest cfg noCall (room b + 1) b α β depth move

/-- The search of a whole game from its opening move, in the widest window. -/
def solve (cfg : Pruning) (b : Board) (move : Int) : Outcome :=
  minimax cfg b Score.bottom Score.top 0 move

/-- The calls that the search from the opening in cell `0` takes with both cutoffs on. -/
def referenceNodes : Nat := 1903

end Noughts
