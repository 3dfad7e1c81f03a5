import TermScene.Binary64.Arithmetic
import TermScene.Color.Paint

/-!
# Shapes in cells

A shape is a grid of cells, each set or clear. Drawn as text, a set cell is a painted glyph, a clear
one a space, and every row ends with a newline. A grid whose cells, or those of a side, are more than
a machine word counts is refused before any cell is made.
-/

namespace TermScene

/-- A grid of cells. A grid without rows still has a width. -/
structure Mask where
  width : Nat
  rows : List (List Bool)
  deriving DecidableEq, Repr

namespace Mask

def height (mask : Mask) : Nat := mask.rows.length

/-- The grid that a function on rows and columns gives. -/
def ofCells (height width : Nat) (cell : Nat → Nat → Bool) : Mask :=
  ⟨width, (List.range height).map fun row => (List.range width).map fun column => cell row column⟩

def empty : Mask := ⟨0, []⟩

def rowText (filled : String) (row : List Bool) : String :=
  String.join (row.map fun cell => if cell then filled else " ") ++ "\n"

def text (mask : Mask) (glyph color : String) (enabled : Bool) : String :=
  let filled := paint .foreground color enabled glyph
  String.join (mask.rows.map (rowText filled))

def rectangle (height width : Nat) : Mask := ofCells height width fun _ _ => true

@[simp]
theorem height_ofCells (height width : Nat) (cell : Nat → Nat → Bool) :
    (ofCells height width cell).height = height := by
  simp [ofCells, Mask.height]

theorem ofCells_cell (height width : Nat) (cell : Nat → Nat → Bool) {row column : Nat}
    (inHeight : row < height) (inWidth : column < width) :
    ((ofCells height width cell).rows[row]?.bind (·[column]?)) = some (cell row column) := by
  simp [ofCells, inHeight, inWidth]

end Mask

def dotGlyph : String := "●"

def blockGlyph : String := "█"

/-- Why a shape has no grid: a size of it is no number of cells, or there are more cells than can be
counted along a side, along the axes of a disc, or in all. -/
inductive MaskFailure where
  | unbounded (cause : Binary64.Unbounded)
  | longSide
  | longAxis
  | tooManyCells
  deriving DecidableEq, Repr

def MaskFailure.message : MaskFailure → String
  | .unbounded cause => cause.message
  | .longSide => "Maximum allowed dimension exceeded"
  | .longAxis => "Maximum allowed size exceeded"
  | .tooManyCells =>
      "array is too big; `arr.size * arr.dtype.itemsize` is larger than the maximum possible size."

/-- The most cells that can be counted: the greatest signed number of 64 bits. -/
def cellLimit : Nat := 9223372036854775807

/-- Refuses the sides of a grid that cannot be counted. -/
def checkSides (height width : Nat) : Except MaskFailure Unit :=
  if cellLimit < height ∨ cellLimit < width then .error .longSide
  else if cellLimit < height * width then .error .tooManyCells
  else .ok ()

/-- Sides are accepted exactly if each of them and their product can be counted. -/
theorem checkSides_eq_ok_iff {height width : Nat} :
    checkSides height width = .ok () ↔
      height ≤ cellLimit ∧ width ≤ cellLimit ∧ height * width ≤ cellLimit := by
  unfold checkSides
  split
  · constructor
    · intro refused; simp at refused
    · rintro ⟨high, wide, -⟩; omega
  · split
    · constructor
      · intro refused; simp at refused
      · rintro ⟨-, -, all⟩; omega
    · simp; omega

/-- A rectangle's grid: a part of a cell counts as a cell, and negative sizes are none. -/
def rectMask (width height : Binary64) : Except MaskFailure Mask := do
  let rows ← height.ceil.mapError .unbounded
  let columns ← width.ceil.mapError .unbounded
  checkSides rows.toNat columns.toNat
  return Mask.rectangle rows.toNat columns.toNat

end TermScene
