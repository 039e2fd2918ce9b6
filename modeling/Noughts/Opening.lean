import Noughts.Search
import Noughts.Counter
import Noughts.Log

/-!
# Opening runs

A run searches the game that starts with a cross on one cell, a given number of times over, on a
board of its own.  It reports the score of the last search, none if there was no search, and the
calls of all of them together.

A run is refused before anything is searched if its cell is not on the board or its count is
negative; of the two, the cell is looked at first.
-/

set_option autoImplicit false

namespace Noughts

/-- Why a run ends without a result. -/
inductive RunError where
  /-- There is no such opening. -/
  | openingOutside (move : Int)
  /-- A run cannot be repeated a negative number of times. -/
  | negativeIterations (iterations : Int)
  /-- A search met a fault. -/
  | fault (f : Fault)
  deriving DecidableEq, Repr

/-- The wording of a run error. -/
def RunError.message : RunError → String
  | .openingOutside move => "Opening move out of range [0,8]: " ++ toString move
  | .negativeIterations n => "Iterations must be >= 0: " ++ toString n
  | .fault f => f.message

/-- What a run reports. -/
structure Run where
  move : Int
  iterations : Int
  /-- The score of the last search, if there was one. -/
  score : Option Score
  /-- The calls of all searches. -/
  nodes : Nat
  /-- What was logged on the way. -/
  log : Log := []
  deriving Repr

namespace Run

/-- A run between two of its searches. -/
structure Progress where
  board : Board
  score : Option Score := none
  nodes : Nat := 0
  log : Log := []

/-- The note on a score that the theory of the game does not expect. -/
def unexpected (move : Int) (score : Score) : Log :=
  if score = Score.tie then []
  else [⟨.debug, "opening=" ++ toString move ++ " score is " ++ score.name⟩]

/-- The remaining searches of a run, one after the other on the same board. -/
def searches (cfg : Pruning) (move : Int) : Nat → Progress → Except Fault Progress
  | 0, p => .ok p
  | n + 1, p =>
    let o := solve cfg p.board move
    match o.score with
    | .error f => .error f
    | .ok s => searches cfg move n ⟨o.board, some s, p.nodes + o.nodes, p.log ++ unexpected move s⟩

end Run

/-- **A run of one opening.** -/
def runOpening (cfg : Pruning) (move iterations : Int) : Except RunError Run :=
  match Board.opening? move with
  | .error _ => .error (.openingOutside move)
  | .ok board =>
    if iterations < 0 then .error (.negativeIterations iterations)
    else
      match Run.searches cfg move iterations.toNat { board } with
      | .error f => .error (.fault f)
      | .ok p => .ok { move, iterations, score := p.score, nodes := p.nodes, log := p.log }

/-- A run that adds its calls to a counter when it is done. -/
def Counter.runOpening (c : Counter) (cfg : Pruning) (move iterations : Int) :
    Except RunError Run × Counter :=
  match Noughts.runOpening cfg move iterations with
  | .error e => (.error e, c)
  | .ok r => (.ok r, c.add r.nodes)

end Noughts
