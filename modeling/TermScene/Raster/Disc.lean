import TermScene.Raster

/-!
# Discs

The cells of a disc lie on a lattice of step one whose first point is a radius before the centre. A
cell is set if its distance from the centre, rounded to a double, is less than the radius.

Every lattice point is a double: it is a multiple of the radius's last binary place, and no farther
from zero than the radius. So coordinates are computed exactly. A distance is rounded to less than the
radius if it lies below the point halfway between the radius and the double below it; no distance lies
on that point, whose square has binary places that no sum of squared coordinates has. So no root is
taken: squares are compared. The lattice is refused if the octets of its coordinates cannot be counted.
-/

namespace TermScene

/-- The coordinates of so many lattice points, the first one a radius before the centre. -/
def discAxis (radius : Rat) (count : Nat) : List Rat :=
  (List.range count).map fun (index : Nat) => (index : Rat) - radius

/-- The grid of so many lattice points to a side, where the cells nearer to the centre than some reach
are set. -/
def discCells (radius reach : Rat) (count : Nat) : Mask :=
  let squares := (discAxis radius count).map fun coordinate => coordinate * coordinate
  ⟨count, squares.map fun ySquare => squares.map fun xSquare =>
    decide (xSquare + ySquare < reach * reach)⟩

@[simp]
theorem height_discCells (radius reach : Rat) (count : Nat) :
    (discCells radius reach count).height = count := by
  simp [discCells, discAxis, Mask.height]

/-- How far from the centre a distance is less than the radius once it is rounded. -/
def discReach (radius : Rat) : Rat :=
  if radius = 0 then 0 else (radius + Binary64.below radius) / 2

def coordinateOctets : Nat := 8

/-- The number of lattice points for a disc so many cells wide, unless a disc of that width has too
many of them. Points are counted as doubles; the double one past the greatest count stands for none. -/
def latticeSize (count : Int) : Except MaskFailure Nat :=
  let counted := Binary64.ofInt count
  let past := Binary64.ofInt (cellLimit + 1 : Nat)
  if past.lt counted then .error .longAxis
  else if past.le counted then .ok 0
  else if cellLimit < coordinateOctets * count.toNat * count.toNat then .error .tooManyCells
  else .ok count.toNat

/-- A disc's grid. A negative radius gives none, nor does one that is no number. -/
def discMask (radius : Binary64) : Except MaskFailure Mask :=
  if (Binary64.ofInt 0).le radius then do
    let diameter ← (Binary64.ofInt 2 * radius).floor.mapError .unbounded
    let count ← latticeSize (diameter + 1)
    let length := radius.value?.getD 0
    return discCells length (discReach length) count
  else .ok .empty

end TermScene
