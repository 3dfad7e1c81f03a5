import Mathlib.Data.List.Chain
import Mathlib.Data.List.Range
import TermScene.Proofs.Raster.Memory
import TermScene.Proofs.Raster.Symmetry

/-!
# Segments in their grids

A segment is walked in as many steps as there are cells between its ends along the longer side. The cells on
the way follow on each other, none of them farther than half a cell from the exact line. In the grid there are
just these cells, one in each column between the ends or one in each row, and a margin of two clear cells
around them.
-/

namespace TermScene

namespace Segment

variable {segment : Segment} {steps other : ℕ}

/-- A cell next to another one, also across a corner, and nearer to the second end. -/
structure Follows (segment : Segment) (cell next : ℤ × ℤ) : Prop where
  moves : next ≠ cell
  sideways : next.1 = cell.1 ∨ next.1 = cell.1 + (segment.x2 - segment.x1).sign
  updown : next.2 = cell.2 ∨ next.2 = cell.2 + (segment.y2 - segment.y1).sign

/-- How a segment is walked: the number of steps, and the cells on the way from one end to the other. -/
structure IsWalked (segment : Segment) : Prop where
  goesOn : ∀ steps < segment.reach, segment.isAtEnd (segment.walkerAfter steps) = false
  arrives : segment.isAtEnd (segment.walkerAfter segment.reach) = true
  cells : segment.cells = (List.range (segment.reach + 1)).map fun steps =>
    (segment.walkerAfter steps).cell
  enough : ∀ allowed, segment.reach ≤ allowed →
    segment.trail allowed segment.start = segment.cells
  first : segment.cells.head? = some (segment.x1, segment.y1)
  last : segment.cells.getLast? = some (segment.x2, segment.y2)
  follows : segment.cells.IsChain segment.Follows
  near : ∀ cell ∈ segment.cells,
    2 * |(segment.dx * |cell.2 - segment.y1| - segment.dy * |cell.1 - segment.x1|)| ≤
      max segment.dx segment.dy

/-- How a segment stands in its grid. -/
structure IsPlotted (segment : Segment) : Prop where
  made : segment.grid = .ok segment.mask ↔ GridFits segment.height segment.width
  sides : segment.mask.HasSides (segment.dy.toNat + 5) (segment.dx.toNat + 5)
  set : ∀ row column : ℕ, segment.mask.isSet row column = true ↔
    ∃ cell ∈ segment.cells, segment.gridPlace cell = ((row : ℤ), (column : ℤ))
  inside : ∀ cell ∈ segment.cells,
    (2 ≤ (segment.gridPlace cell).1 ∧ (segment.gridPlace cell).1 ≤ segment.dy + 2) ∧
      2 ≤ (segment.gridPlace cell).2 ∧ (segment.gridPlace cell).2 ≤ segment.dx + 2
  clear : ∀ row column : ℕ, (row < 2 ∨ segment.dy + 2 < row) ∨ column < 2 ∨ segment.dx + 2 < column →
    segment.mask.isSet row column = false
  ends : ∀ cell ∈ [(segment.x1, segment.y1), (segment.x2, segment.y2)],
    ∃ row column : ℕ, segment.gridPlace cell = ((row : ℤ), (column : ℤ)) ∧ segment.mask.isSet row column = true
  count : segment.mask.count = segment.reach + 1
  columns : segment.dy ≤ segment.dx → ∀ column : ℕ, 2 ≤ column → column ≤ segment.dx + 2 →
    ∃! row, segment.mask.isSet row column = true
  rows : segment.dx ≤ segment.dy → ∀ row : ℕ, 2 ≤ row → row ≤ segment.dy + 2 →
    ∃! column, segment.mask.isSet row column = true

section Walk

theorem walked_cells (segment : Segment) {allowed : ℕ} (enough : segment.reach ≤ allowed) :
    segment.trail allowed segment.start =
      (List.range (segment.reach + 1)).map fun steps => (segment.walkerAfter steps).cell :=
  trail_eq_map enough (fun _ before => isAtEnd_of_lt before) segment.isAtEnd_reach

theorem follows_courseAt (before : steps < segment.reach) :
    segment.Follows (segment.courseAt steps) (segment.courseAt (steps + 1)) := by
  constructor
  case moves =>
    intro same
    have isSame := courseAt_injOn (Nat.succ_le_of_lt before) before.le same
    omega
  case sideways =>
    rcases partOf_succ segment.dx_le_reach segment.dx_nonneg steps with stays | moves
    · exact .inl (by rw [courseAt, courseAt, stays])
    · exact .inr (by rw [courseAt, courseAt, moves]; ring)
  case updown =>
    rcases partOf_succ segment.dy_le_reach segment.dy_nonneg steps with stays | moves
    · exact .inl (by rw [courseAt, courseAt, stays])
    · exact .inr (by rw [courseAt, courseAt, moves]; ring)

theorem abs_sign_mul {first second part : ℤ} (nonneg : 0 ≤ part)
    (inside : part ≤ (second - first).natAbs) : |(second - first).sign * part| = part := by
  rcases eq_or_ne first second with rfl | apart
  · simp at inside
    simp [le_antisymm inside nonneg]
  · have isUnit : |(second - first).sign| = 1 := by
      rw [Int.abs_sign_of_ne_zero (sub_ne_zero.mpr apart.symm)]
    rw [abs_mul, isUnit, one_mul, abs_of_nonneg nonneg]

/-- Along one side the part that is covered is exact, along the other one it is the nearest. -/
theorem abs_drift_le (inside : steps ≤ segment.reach) :
    2 * |segment.dx * segment.partOf segment.dy steps - segment.dy * segment.partOf segment.dx steps| ≤
      max segment.dx segment.dy := by
  have twice (distance : ℤ) : 2 * |distance| = |2 * distance| := by
    rw [abs_mul, abs_two]
  rw [← reach_eq_max]
  rcases le_total segment.dy segment.dx with wide | high
  · have isWidth := reach_eq_dx wide
    rw [twice, partOf_of_eq_reach isWidth.symm inside, ← isWidth]
    exact abs_partOf_le segment.dy_le_reach segment.dy_nonneg
  · have isHeight : (segment.reach : ℤ) = segment.dy := by
      rw [reach_eq_max, max_eq_right high]
    rw [abs_sub_comm, twice, partOf_of_eq_reach isHeight.symm inside, ← isHeight]
    exact abs_partOf_le segment.dx_le_reach segment.dx_nonneg

theorem isWalked (segment : Segment) : segment.IsWalked := by
  have width := segment.dx_nonneg
  have height := segment.dy_nonneg
  have isReach := segment.reach_eq_max
  have allowed : segment.reach ≤ (segment.dx + segment.dy).toNat := by omega
  have isCells : segment.cells = _ := segment.walked_cells allowed
  constructor
  case goesOn => exact fun steps before => isAtEnd_of_lt before
  case arrives => exact segment.isAtEnd_reach
  case cells => exact isCells
  case enough =>
    intro allowed enough
    rw [isCells, segment.walked_cells enough]
  case first =>
    rw [cells_eq_map, List.range_succ_eq_map, List.map_cons, courseAt_zero, List.head?_cons]
  case last => exact segment.cells_arrive.2
  case follows =>
    rw [cells_eq_map, List.isChain_map, List.isChain_range]
    exact fun steps before => follows_courseAt before
  case near =>
    rw [forall_mem_cells]
    intro steps inside
    rcases partOf_mem segment.dx_nonneg inside with ⟨fromLeft, toRight⟩
    rcases partOf_mem segment.dy_nonneg inside with ⟨fromTop, toBottom⟩
    simp only [courseAt, add_sub_cancel_left]
    rw [abs_sign_mul fromLeft toRight, abs_sign_mul fromTop toBottom]
    exact abs_drift_le inside

end Walk

section Grid

theorem exists_placeAlong {first second place : ℤ} (low : 2 ≤ place)
    (high : place ≤ (second - first).natAbs + 2) :
    ∃ part : ℕ, part ≤ (second - first).natAbs ∧ placeAlong first second part = place := by
  simp only [placeAlong, margin]
  rcases lt_or_ge first second with right | left
  · refine ⟨(place - 2).toNat, by omega, ?_⟩
    rw [Int.sign_eq_one_of_pos (by omega)]
    omega
  · refine ⟨((second - first).natAbs + 2 - place).toNat, by omega, ?_⟩
    rcases left.eq_or_lt with rfl | left
    · simp
      omega
    · rw [Int.sign_eq_neg_one_of_neg (by omega)]
      omega

theorem isSet_iff_exists_courseAt {row column : ℕ} :
    segment.mask.isSet row column = true ↔ ∃ steps ≤ segment.reach,
      segment.gridPlace (segment.courseAt steps) = ((row : ℤ), (column : ℤ)) := by
  simp only [isSet_mask_iff, places_eq_map, List.mem_map, List.mem_range, Nat.lt_succ_iff]

/-- The cells on the way have their places in the grid, at natural numbers. -/
theorem exists_place_courseAt (inside : steps ≤ segment.reach) : ∃ row column : ℕ,
    segment.gridPlace (segment.courseAt steps) = ((row : ℤ), (column : ℤ)) ∧
      segment.mask.isSet row column = true := by
  rcases segment.gridPlace_mem _ (courseAt_mem_cells inside) with ⟨⟨top, -⟩, left, -⟩
  have isPlace : segment.gridPlace (segment.courseAt steps) =
      (((segment.gridPlace (segment.courseAt steps)).1.toNat : ℤ),
        ((segment.gridPlace (segment.courseAt steps)).2.toNat : ℤ)) :=
    Prod.ext (by omega) (by omega)
  exact ⟨_, _, isPlace, isSet_iff_exists_courseAt.mpr ⟨steps, inside, isPlace⟩⟩

/-- On a segment that is no higher than wide every column between the ends has one set cell. -/
theorem existsUnique_row (wide : segment.dy ≤ segment.dx) {column : ℕ} (low : 2 ≤ column)
    (high : column ≤ segment.dx + 2) : ∃! row, segment.mask.isSet row column = true := by
  have isWidth := reach_eq_dx wide
  rcases exists_placeAlong (by exact_mod_cast low) high with ⟨steps, inside, isColumn⟩
  have before : steps ≤ segment.reach := by
    rw [dx] at isWidth
    omega
  have onCourse : (segment.gridPlace (segment.courseAt steps)).2 = column := by
    rwa [gridPlace_courseAt, partOf_of_eq_reach isWidth.symm before]
  have isPlace := segment.gridPlace_mem _ (courseAt_mem_cells before)
  refine ⟨(segment.gridPlace (segment.courseAt steps)).1.toNat, ?_, fun row isSet => ?_⟩
  · refine isSet_iff_exists_courseAt.mpr ⟨steps, before, Prod.ext ?_ onCourse⟩
    omega
  · rcases isSet_iff_exists_courseAt.mp isSet with ⟨other, otherBefore, isOther⟩
    have sameColumn : (segment.courseAt other).1 = (segment.courseAt steps).1 := by
      have otherColumn := congrArg Prod.snd isOther
      simp only [gridPlace] at onCourse otherColumn
      omega
    rw [← fst_courseAt_injOn wide otherBefore before sameColumn, isOther]
    rfl

theorem isSet_transpose (segment : Segment) (row column : ℕ) :
    segment.transpose.mask.isSet row column = segment.mask.isSet column row := by
  rw [Bool.eq_iff_iff, isSet_mask_iff, isSet_mask_iff, places_transpose,
    List.mem_map_of_involutive Prod.swap_swap]
  rfl

theorem nodup_places (segment : Segment) : segment.places.Nodup := by
  rw [places, cells_eq_map, List.map_map]
  refine List.Nodup.map_on (fun steps inside other otherInside same => ?_) List.nodup_range
  simp only [Function.comp_apply, gridPlace, Prod.mk.injEq, sub_left_inj] at same
  rw [List.mem_range, Nat.lt_succ_iff] at inside otherInside
  exact courseAt_injOn inside otherInside (Prod.ext same.2 same.1)

theorem isPlotted (segment : Segment) : segment.IsPlotted := by
  have height := segment.height_eq
  have width := segment.width_eq
  have heightNonneg := segment.dy_nonneg
  have widthNonneg := segment.dx_nonneg
  have isHeight : segment.height = segment.dy.toNat + 5 := by omega
  have isWidth : segment.width = segment.dx.toNat + 5 := by omega
  have set (row column : ℕ) : segment.mask.isSet row column = true ↔
      ∃ cell ∈ segment.cells, segment.gridPlace cell = ((row : ℤ), (column : ℤ)) := by
    rw [isSet_mask_iff, places, List.mem_map]
  constructor
  case made =>
    rw [GridFits, ← checkSides_eq_ok_iff, grid]
    cases checkSides segment.height segment.width <;> simp [bind, Except.bind, pure, Except.pure]
  case sides =>
    rw [mask_eq_ofCells, ← isHeight, ← isWidth]
    exact Mask.hasSides_ofCells ..
  case set => exact set
  case inside => exact segment.gridPlace_mem
  case clear =>
    intro row column outside
    rw [Bool.eq_false_iff]
    intro isSet
    rcases (set row column).mp isSet with ⟨cell, isCell, isPlace⟩
    have inside := segment.gridPlace_mem cell isCell
    rw [isPlace] at inside
    omega
  case ends =>
    rw [List.forall_mem_cons, List.forall_mem_singleton, ← courseAt_zero, ← courseAt_reach]
    exact ⟨exists_place_courseAt (Nat.zero_le _), exists_place_courseAt le_rfl⟩
  case count =>
    rw [mask_eq_ofCells, Mask.count_ofCells_places segment.nodup_places, places_eq_map, List.length_map,
      List.length_range]
    intro place isPlace
    rcases List.mem_map.mp isPlace with ⟨cell, isCell, rfl⟩
    have inside := segment.gridPlace_mem cell isCell
    omega
  case columns => exact fun wide column low high => existsUnique_row wide low high
  case rows =>
    intro high row low inside
    have wide : segment.transpose.dy ≤ segment.transpose.dx := high
    simpa only [isSet_transpose] using existsUnique_row wide low inside

/-- Every segment is walked from end to end in as many steps as its longer side has, and its grid has just
the cells of that walk. -/
theorem isWalked_isPlotted (segment : Segment) : segment.IsWalked ∧ segment.IsPlotted :=
  ⟨segment.isWalked, segment.isPlotted⟩

end Grid

end Segment

end TermScene
