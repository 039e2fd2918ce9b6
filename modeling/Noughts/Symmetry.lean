import Noughts.Board

/-!
# The symmetries of the square

Four rotations and four reflections.  Every first move is the image of a corner, an edge or the
centre under one of them, which is why three openings stand for all nine.

A symmetry is given by where each cell of the *new* board takes its piece from
(`Symmetry.source`); `Symmetry.transform` moves a board along it.  A move travels the other way,
so `Symmetry.image` is the inverse map: the cell on which the piece of a given cell lands.  Mixing
the two up goes unnoticed on the six symmetries that are their own inverse, and shows on the two
quarter turns.

The search itself never uses a symmetry.
-/

set_option autoImplicit false

namespace Noughts

/-- The eight symmetries of the board. -/
inductive Symmetry where
  | identity
  | quarterTurn
  | halfTurn
  | threeQuarterTurn
  | flipColumns
  | flipRows
  | mainDiagonal
  | antiDiagonal
  deriving DecidableEq, Repr

/-- A name that belongs to no symmetry. -/
structure UnknownSymmetry where
  given : String
  deriving DecidableEq, Repr

/-- The wording of the error. -/
def UnknownSymmetry.message (e : UnknownSymmetry) : String :=
  "Unknown transformation: " ++ e.given

namespace Symmetry

/-- All eight, the identity first. -/
def all : List Symmetry :=
  [identity, quarterTurn, halfTurn, threeQuarterTurn, flipColumns, flipRows, mainDiagonal,
   antiDiagonal]

/-- The name a symmetry goes by. -/
def name : Symmetry → String
  | identity => "id"
  | quarterTurn => "rot90"
  | halfTurn => "rot180"
  | threeQuarterTurn => "rot270"
  | flipColumns => "hflip"
  | flipRows => "vflip"
  | mainDiagonal => "d1"
  | antiDiagonal => "d2"

/-- The symmetry with the given name. -/
def ofName (given : String) : Except UnknownSymmetry Symmetry :=
  match all.find? fun s => s.name == given with
  | some s => .ok s
  | none => .error ⟨given⟩

/-! ## Where the pieces go -/

/-- The row and column whose piece lands on row `r`, column `c`. -/
def source : Symmetry → Nat → Nat → Nat × Nat
  | identity, r, c => (r, c)
  | quarterTurn, r, c => (2 - c, r)
  | halfTurn, r, c => (2 - r, 2 - c)
  | threeQuarterTurn, r, c => (c, 2 - r)
  | flipColumns, r, c => (r, 2 - c)
  | flipRows, r, c => (2 - r, c)
  | mainDiagonal, r, c => (c, r)
  | antiDiagonal, r, c => (2 - c, 2 - r)

/-- The cell whose piece lands on `cell`. -/
def sourceOf (s : Symmetry) (cell : Nat) : Nat :=
  let (r, c) := s.source (cell / 3) (cell % 3)
  r * 3 + c

/-- `sourceOf` for each of the nine cells. -/
def sources (s : Symmetry) : List Nat :=
  (List.range 9).map s.sourceOf

/-- Where each cell's piece lands: the inverse of `sources`. -/
def images (s : Symmetry) : List Nat :=
  (List.range 9).map fun cell => s.sources.idxOf cell

/-- The board after the symmetry.  It has nine cells, whatever the length of the old one. -/
def transform (s : Symmetry) (b : Board) : Except Fault Board :=
  s.sources.mapM fun cell => entryAt .cells b cell

/-- The cell on which the piece of `cell` lands. -/
def image (s : Symmetry) (cell : Int) : Except Fault Nat :=
  entry .cells s.images cell

end Symmetry

/-! ## Classes of openings -/

/-- The cells that a symmetry can carry `cell` to, in ascending order. -/
def orbit (cell : Nat) : List Nat :=
  (List.range 9).filter fun target => Symmetry.all.any fun s => s.images[cell]? == some target

/-- `orbit` of the cell that a signed index names. -/
def orbitAt (cell : Int) : Except Fault (List Nat) :=
  (position .cells 9 cell).map orbit

/-- The smallest cell of the orbit. -/
def canonical (cell : Nat) : Nat :=
  (orbit cell).headD cell

/-- `canonical` of the cell that a signed index names. -/
def canonicalAt (cell : Int) : Except Fault Nat :=
  (position .cells 9 cell).map canonical

/-- The classes of openings: each canonical cell with its orbit, as the nine cells lead to them. -/
def openingClasses : List (Nat × List Nat) :=
  (((List.range 9).map canonical).eraseDups).map fun cell => (cell, orbit cell)

end Noughts
