import TermScene.Raster

/-!
# Line segments

A walker goes from one end of a segment to the other. In each step it moves by one cell along one or
both axes, guided by an error term that says on which side of the segment it is. The cells it visits
are set in a grid with a margin around them.
-/

namespace TermScene

/-- A segment between two cells. -/
structure Segment where
  x1 : Int
  y1 : Int
  x2 : Int
  y2 : Int
  deriving DecidableEq, Repr

/-- A walker on a segment: its cell and its error term. -/
structure Walker where
  x : Int
  y : Int
  error : Int
  deriving DecidableEq, Repr

namespace Segment

/-- The number of cells between the ends, from side to side. -/
def dx (segment : Segment) : Int := (segment.x2 - segment.x1).natAbs

/-- The number of cells between the ends, up or down. -/
def dy (segment : Segment) : Int := (segment.y2 - segment.y1).natAbs

def directionX (segment : Segment) : Int := if segment.x1 < segment.x2 then 1 else -1

def directionY (segment : Segment) : Int := if segment.y1 < segment.y2 then 1 else -1

def start (segment : Segment) : Walker := ⟨segment.x1, segment.y1, segment.dx - segment.dy⟩

def isAtEnd (segment : Segment) (walker : Walker) : Bool :=
  walker.x == segment.x2 && walker.y == segment.y2

/-- One step. Whether to move along either axis is decided by the error term before the step. -/
def step (segment : Segment) (walker : Walker) : Walker :=
  let sideways := decide (-segment.dy < 2 * walker.error)
  let updown := decide (2 * walker.error < segment.dx)
  { x := if sideways then walker.x + segment.directionX else walker.x
    y := if updown then walker.y + segment.directionY else walker.y
    error :=
      walker.error - (if sideways then segment.dy else 0) + (if updown then segment.dx else 0) }

/-- The cells that a walker visits within so many steps, up to the second end. -/
def trail (segment : Segment) : Nat → Walker → List (Int × Int)
  | 0, walker => [(walker.x, walker.y)]
  | steps + 1, walker =>
      (walker.x, walker.y)
        :: if segment.isAtEnd walker then [] else segment.trail steps (segment.step walker)

/-- The cells of a segment. A walker that has not arrived moves along at least one axis in each step,
so it needs no more steps than there are cells between the ends along both. -/
def cells (segment : Segment) : List (Int × Int) :=
  segment.trail (segment.dx + segment.dy).toNat segment.start

/-- The number of clear cells around a segment in its grid. -/
def margin : Nat := 2

def width (segment : Segment) : Nat := (segment.dx + 2 * margin + 1).toNat

def height (segment : Segment) : Nat := (segment.dy + 2 * margin + 1).toNat

def mask (segment : Segment) : Mask :=
  let left := min segment.x1 segment.x2 - margin
  let top := min segment.y1 segment.y2 - margin
  ⟨segment.width, (List.range segment.height).map fun (row : Nat) =>
    let columns := (segment.cells.filter fun cell => cell.2 = top + row).map Prod.fst
    (List.range segment.width).map fun (column : Nat) => columns.contains (left + column)⟩

end Segment

/-- The segment between two points, their fractions cut off. -/
def segmentOf (x1 y1 x2 y2 : Binary64) : Except Binary64.Unbounded Segment := do
  return ⟨← x1.truncate, ← y1.truncate, ← x2.truncate, ← y2.truncate⟩

def segmentMask (x1 y1 x2 y2 : Binary64) : Except MaskFailure Mask := do
  let segment ← (segmentOf x1 y1 x2 y2).mapError .unbounded
  checkSides segment.height segment.width
  return segment.mask

end TermScene
