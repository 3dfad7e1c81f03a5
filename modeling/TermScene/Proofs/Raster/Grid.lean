import Mathlib.Algebra.Order.Ring.Int
import Mathlib.Data.List.Nodup
import Mathlib.Data.List.ProdSigma
import Mathlib.Tactic.Lift
import TermScene.Raster

/-!
# Grids

A grid is told by its sides and by which of its cells are set. Turned over or with its sides exchanged it is
told by the same cells, counted from the other side or along the other one.
-/

namespace TermScene

namespace Mask

variable {height width : ℕ} {cell : ℕ → ℕ → Bool}

/-- Whether a cell is set. Outside the grid none is. -/
def isSet (mask : Mask) (row column : ℕ) : Bool := (mask.rows[row]?.bind (·[column]?)).getD false

/-- The number of cells that are set. -/
def count (mask : Mask) : ℕ := mask.rows.flatten.count true

/-- The grid with its last row first. -/
def flipRows (mask : Mask) : Mask := { mask with rows := mask.rows.reverse }

/-- The grid with its last column first. -/
def flipColumns (mask : Mask) : Mask := { mask with rows := mask.rows.map List.reverse }

/-- The grid with its rows as columns. -/
def transpose (mask : Mask) : Mask :=
  ofCells mask.width mask.height fun row column => mask.isSet column row

/-- The grid has so many rows and as many cells in each of them as it is wide. -/
structure HasSides (mask : Mask) (height width : ℕ) : Prop where
  isHeight : mask.height = height
  isWidth : mask.width = width
  areWide : ∀ row ∈ mask.rows, row.length = width

theorem hasSides_ofCells (height width : ℕ) (cell : ℕ → ℕ → Bool) :
    (ofCells height width cell).HasSides height width := by
  refine ⟨height_ofCells .., rfl, ?_⟩
  simp [ofCells]

theorem isSet_ofCells {row column : ℕ} (inHeight : row < height) (inWidth : column < width) :
    (ofCells height width cell).isSet row column = cell row column := by
  rw [isSet, ofCells_cell height width cell inHeight inWidth, Option.getD_some]

theorem isSet_ofCells_iff {row column : ℕ} :
    (ofCells height width cell).isSet row column = true ↔
      row < height ∧ column < width ∧ cell row column = true := by
  by_cases inHeight : row < height
  · by_cases inWidth : column < width
    · simp [isSet_ofCells inHeight inWidth, inHeight, inWidth]
    · simp [isSet, ofCells, inHeight, inWidth]
  · simp [isSet, ofCells, inHeight]

theorem ofCells_congr {other : ℕ → ℕ → Bool}
    (same : ∀ row < height, ∀ column < width, cell row column = other row column) :
    ofCells height width cell = ofCells height width other := by
  simp only [ofCells, Mask.mk.injEq, true_and]
  refine List.map_congr_left fun row inHeight => List.map_congr_left fun column inWidth => ?_
  exact same row (List.mem_range.mp inHeight) column (List.mem_range.mp inWidth)

theorem reverse_map_range {α : Type} (size : ℕ) (item : ℕ → α) :
    ((List.range size).map item).reverse =
      (List.range size).map fun index => item (size - 1 - index) := by
  apply List.ext_getElem (by simp)
  intro index inside _
  simp

theorem flipRows_ofCells (height width : ℕ) (cell : ℕ → ℕ → Bool) :
    (ofCells height width cell).flipRows =
      ofCells height width fun row column => cell (height - 1 - row) column := by
  simp [flipRows, ofCells, reverse_map_range]

theorem flipColumns_ofCells (height width : ℕ) (cell : ℕ → ℕ → Bool) :
    (ofCells height width cell).flipColumns =
      ofCells height width fun row column => cell row (width - 1 - column) := by
  simp [flipColumns, ofCells, reverse_map_range]

theorem transpose_ofCells (height width : ℕ) (cell : ℕ → ℕ → Bool) :
    (ofCells height width cell).transpose =
      ofCells width height fun row column => cell column row := by
  rw [transpose, height_ofCells]
  exact ofCells_congr fun row inHeight column inWidth => isSet_ofCells inWidth inHeight

theorem count_ofCells (height width : ℕ) (cell : ℕ → ℕ → Bool) :
    (ofCells height width cell).count =
      ((List.range height ×ˢ List.range width).filter fun place => cell place.1 place.2).length := by
  have rows : (ofCells height width cell).rows.flatten =
      (List.range height ×ˢ List.range width).map fun place => cell place.1 place.2 := by
    simp [ofCells, SProd.sprod, List.product, List.flatMap, Function.comp_def]
  rw [count, rows, List.count, List.countP_map, List.countP_eq_length_filter]
  simp [Function.comp_def]

/-- Where the set cells are listed without repetition, there are as many of them as the list is long. -/
theorem count_ofCells_places {places : List (ℤ × ℤ)} (distinct : places.Nodup)
    (inside : ∀ place ∈ places,
      (0 ≤ place.1 ∧ place.1 < height) ∧ 0 ≤ place.2 ∧ place.2 < width) :
    (ofCells height width fun row column => decide (((row : ℤ), (column : ℤ)) ∈ places)).count =
      places.length := by
  let isPlace : ℕ × ℕ → ℤ × ℤ := fun place => (place.1, place.2)
  have injective : Function.Injective isPlace := by
    intro first second same
    simpa [isPlace, Prod.ext_iff] using same
  have areCells : (List.range height ×ˢ List.range width).Nodup := List.nodup_range.product List.nodup_range
  have perm : (((List.range height ×ˢ List.range width).filter fun place =>
      decide (isPlace place ∈ places)).map isPlace).Perm places := by
    rw [List.perm_ext_iff_of_nodup ((areCells.filter _).map injective) distinct]
    intro place
    simp only [List.mem_map, List.mem_filter, Prod.exists, List.mem_product, List.mem_range,
      decide_eq_true_eq]
    constructor
    · rintro ⟨row, column, ⟨-, isIn⟩, rfl⟩
      exact isIn
    · intro isIn
      rcases place with ⟨row, column⟩
      rcases inside _ isIn with ⟨⟨top, bottom⟩, left, right⟩
      lift row to ℕ using top
      lift column to ℕ using left
      exact ⟨row, column, ⟨⟨Int.ofNat_lt.mp bottom, Int.ofNat_lt.mp right⟩, isIn⟩, rfl⟩
  rw [count_ofCells, ← perm.length_eq, List.length_map]

end Mask

end TermScene
