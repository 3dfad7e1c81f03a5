import TermScene.Proofs.Raster.Course
import TermScene.Proofs.Raster.Grid

/-!
# Segments that are moved, mirrored and turned

The grid of a segment does not depend on where the segment is. If the segment is mirrored its grid is turned
over, and if its sides are exchanged so are those of the grid. This holds of the course of the segment, cell by
cell, since what a step covers of a side depends on the lengths of the sides alone.
-/

namespace TermScene

theorem checkSides_comm (height width : ℕ) : checkSides height width = checkSides width height := by
  simp only [checkSides, or_comm, mul_comm]

namespace Segment

variable {segment image : Segment} {steps : ℕ}

/-- The segment so many cells to the right and down. -/
def translate (segment : Segment) (right down : ℤ) : Segment :=
  ⟨segment.x1 + right, segment.y1 + down, segment.x2 + right, segment.y2 + down⟩

def mirrorX (segment : Segment) : Segment := ⟨-segment.x1, segment.y1, -segment.x2, segment.y2⟩

def mirrorY (segment : Segment) : Segment := ⟨segment.x1, -segment.y1, segment.x2, -segment.y2⟩

/-- The grid of a segment, unless its sides are too long. -/
def grid (segment : Segment) : Except MaskFailure Mask := do
  checkSides segment.height segment.width
  return segment.mask

theorem segmentMask_eq_grid (x1 y1 x2 y2 : Binary64) :
    segmentMask x1 y1 x2 y2 = (segmentOf x1 y1 x2 y2).mapError .unbounded >>= grid := rfl

/-- The rows and columns of the cells of a segment in its grid, in their order. -/
def places (segment : Segment) : List (ℤ × ℤ) := segment.cells.map segment.gridPlace

theorem places_eq_map (segment : Segment) :
    segment.places = (List.range (segment.reach + 1)).map fun steps =>
      segment.gridPlace (segment.courseAt steps) := by
  rw [places, cells_eq_map, List.map_map]
  rfl

/-- A cell of the grid is set if it is the place of a cell of the segment. -/
theorem mask_eq_ofCells (segment : Segment) :
    segment.mask = Mask.ofCells segment.height segment.width fun row column =>
      decide (((row : ℤ), (column : ℤ)) ∈ segment.places) := by
  simp only [mask, Mask.ofCells, Mask.mk.injEq, true_and]
  refine List.map_congr_left fun row _ => List.map_congr_left fun column _ => ?_
  rw [Bool.eq_iff_iff, decide_eq_true_iff, List.contains_iff_mem]
  simp only [places, List.mem_map, List.mem_filter, decide_eq_true_eq, gridPlace, Prod.mk.injEq, Prod.exists]
  constructor
  · rintro ⟨x, y, ⟨isCell, isRow⟩, isColumn⟩
    exact ⟨x, y, isCell, by omega, by omega⟩
  · rintro ⟨x, y, isCell, isRow, isColumn⟩
    exact ⟨x, y, ⟨isCell, by omega⟩, by omega⟩

theorem isSet_mask_iff {row column : ℕ} :
    segment.mask.isSet row column = true ↔ ((row : ℤ), (column : ℤ)) ∈ segment.places := by
  rw [mask_eq_ofCells, Mask.isSet_ofCells_iff, decide_eq_true_iff]
  refine ⟨fun isSet => isSet.2.2, fun isPlace => ?_⟩
  rcases List.mem_map.mp isPlace with ⟨cell, isCell, same⟩
  have inside := segment.gridPlace_mem cell isCell
  have height := segment.height_eq
  have width := segment.width_eq
  rw [same] at inside
  exact ⟨by omega, by omega, isPlace⟩

/-- Another segment whose grid is that of the first one but for a change, and is refused if that one is. -/
structure IsImage (image segment : Segment) (change : Mask → Mask) : Prop where
  mask : image.mask = change segment.mask
  grid : image.grid = segment.grid.map change

theorem isImage_of_mask {change : Mask → Mask} (masks : image.mask = change segment.mask)
    (sides : checkSides image.height image.width = checkSides segment.height segment.width) :
    image.IsImage segment change := by
  refine ⟨masks, ?_⟩
  rw [grid, grid, masks, sides]
  cases checkSides segment.height segment.width <;> rfl

/-- Two segments with the same number of cells between their ends along either side. -/
structure HasSameSides (image segment : Segment) : Prop where
  dx : image.dx = segment.dx
  dy : image.dy = segment.dy

namespace HasSameSides

variable (same : image.HasSameSides segment)
include same

theorem reach : image.reach = segment.reach := by rw [Segment.reach, Segment.reach, same.dx, same.dy]

theorem partOf (way : ℤ) (steps : ℕ) : image.partOf way steps = segment.partOf way steps := by
  rw [Segment.partOf, Segment.partOf, same.reach]

theorem height : image.height = segment.height := by rw [Segment.height, Segment.height, same.dy]

theorem width : image.width = segment.width := by rw [Segment.width, Segment.width, same.dx]

/-- If the image has the places of the segment turned, and turning twice does nothing, then its grid is made
from that of the segment by turning all cells. -/
theorem isImage {turned : ℤ × ℤ → ℤ × ℤ} {change : Mask → Mask} (involutive : Function.Involutive turned)
    (each : ∀ steps, image.gridPlace (image.courseAt steps) =
      turned (segment.gridPlace (segment.courseAt steps)))
    (changed : ∀ isSet : ℤ × ℤ → Bool,
      change (Mask.ofCells segment.height segment.width fun row column => isSet (row, column)) =
        Mask.ofCells segment.height segment.width fun row column => isSet (turned (row, column))) :
    image.IsImage segment change := by
  have places : image.places = segment.places.map turned := by
    rw [places_eq_map, places_eq_map, List.map_map, same.reach]
    exact List.map_congr_left fun steps _ => each steps
  refine isImage_of_mask ?_ (by rw [same.height, same.width])
  rw [mask_eq_ofCells segment, changed fun place => decide (place ∈ segment.places), mask_eq_ofCells,
    same.height, same.width, places]
  refine Mask.ofCells_congr fun row _ column _ => ?_
  rw [decide_eq_decide, List.mem_map_of_involutive involutive]

end HasSameSides

theorem placeAlong_add (first second moved part : ℤ) :
    placeAlong (first + moved) (second + moved) part = placeAlong first second part := by
  rw [placeAlong, placeAlong, add_sub_add_right_eq_sub, min_add_add_right]
  ring

theorem placeAlong_neg (first second part : ℤ) :
    placeAlong (-first) (-second) part = (second - first).natAbs + 4 - placeAlong first second part := by
  have turned : (-second - -first).sign = -(second - first).sign := by
    rw [← Int.sign_neg, neg_sub_neg, neg_sub]
  rw [placeAlong, placeAlong, turned, neg_mul, margin]
  omega

section Images

variable (segment : Segment)

theorem isImage_translate (right down : ℤ) : (segment.translate right down).IsImage segment id := by
  have same : (segment.translate right down).HasSameSides segment := by
    constructor <;> simp [translate, dx, dy]
  have involutive : Function.Involutive (id : ℤ × ℤ → ℤ × ℤ) := fun _ => rfl
  refine same.isImage involutive (fun steps => ?_) (fun _ => rfl)
  simp only [gridPlace_courseAt, same.dx, same.dy, same.partOf]
  simp only [translate, placeAlong_add, id_eq]

theorem isImage_mirrorX : segment.mirrorX.IsImage segment Mask.flipColumns := by
  have same : segment.mirrorX.HasSameSides segment := by
    constructor
    · simp only [mirrorX, dx]
      omega
    · rfl
  let turned : ℤ × ℤ → ℤ × ℤ := fun place => (place.1, segment.dx + 4 - place.2)
  have involutive : Function.Involutive turned := fun place => by simp [turned]
  refine same.isImage involutive (fun steps => ?_) (fun isSet => ?_)
  · simp only [gridPlace_courseAt, same.dx, same.dy, same.partOf]
    simp only [mirrorX, placeAlong_neg, turned, dx]
  · rw [Mask.flipColumns_ofCells]
    refine Mask.ofCells_congr fun row _ column inWidth => congrArg isSet (Prod.ext rfl ?_)
    have width := segment.width_eq
    simp only [turned]
    omega

theorem isImage_mirrorY : segment.mirrorY.IsImage segment Mask.flipRows := by
  have same : segment.mirrorY.HasSameSides segment := by
    constructor
    · rfl
    · simp only [mirrorY, dy]
      omega
  let turned : ℤ × ℤ → ℤ × ℤ := fun place => (segment.dy + 4 - place.1, place.2)
  have involutive : Function.Involutive turned := fun place => by simp [turned]
  refine same.isImage involutive (fun steps => ?_) (fun isSet => ?_)
  · simp only [gridPlace_courseAt, same.dx, same.dy, same.partOf]
    simp only [mirrorY, placeAlong_neg, turned, dy]
  · rw [Mask.flipRows_ofCells]
    refine Mask.ofCells_congr fun row inHeight column _ => congrArg isSet (Prod.ext ?_ rfl)
    have height := segment.height_eq
    simp only [turned]
    omega

theorem places_transpose : segment.transpose.places = segment.places.map Prod.swap := by
  rw [places_eq_map, places_eq_map, List.map_map, reach_transpose]
  refine List.map_congr_left fun steps _ => ?_
  rw [courseAt_transpose]
  rfl

theorem isImage_transpose : segment.transpose.IsImage segment Mask.transpose := by
  have sides : segment.transpose.height = segment.width ∧ segment.transpose.width = segment.height :=
    ⟨rfl, rfl⟩
  refine isImage_of_mask ?_ (by rw [sides.1, sides.2, checkSides_comm])
  rw [mask_eq_ofCells, mask_eq_ofCells, sides.1, sides.2, places_transpose, Mask.transpose_ofCells]
  refine Mask.ofCells_congr fun row _ column _ => ?_
  rw [decide_eq_decide, List.mem_map_of_involutive Prod.swap_swap]
  rfl

/-- The grid of a segment only depends on where its ends are to each other. Mirrored segments have grids that
are turned over, and a segment with its sides exchanged has the grid with its rows as columns. -/
theorem isImage_translate_mirror_transpose :
    (∀ right down, (segment.translate right down).IsImage segment id) ∧
      segment.mirrorX.IsImage segment Mask.flipColumns ∧
      segment.mirrorY.IsImage segment Mask.flipRows ∧
      segment.transpose.IsImage segment Mask.transpose :=
  ⟨segment.isImage_translate, segment.isImage_mirrorX, segment.isImage_mirrorY, segment.isImage_transpose⟩

end Images

end Segment

end TermScene
