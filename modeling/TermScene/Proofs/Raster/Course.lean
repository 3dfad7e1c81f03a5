import Mathlib.Algebra.Order.Ring.Int
import Mathlib.Data.Int.Order.Basic
import TermScene.Proofs.Raster.Walk

/-!
# The course of a segment

A walk takes as many steps as there are cells between the ends along the longer side. After some of them it
has covered the same part of either side, to the nearest cell; where two cells are equally near, the one that
is closer to the first end counts. So the cell after any number of steps is known without the steps before
it, and the cells of a segment are those from no step to the last.
-/

namespace TermScene

namespace Segment

variable {segment : Segment} {way part : ℤ} {steps other : ℕ}

/-- The number of steps from one end to the other. -/
def reach (segment : Segment) : ℕ := (max segment.dx segment.dy).toNat

theorem reach_eq_max (segment : Segment) : (segment.reach : ℤ) = max segment.dx segment.dy := by
  have width := segment.dx_nonneg
  rw [reach]
  omega

theorem dx_le_reach (segment : Segment) : segment.dx ≤ segment.reach :=
  segment.reach_eq_max ▸ le_max_left ..

theorem dy_le_reach (segment : Segment) : segment.dy ≤ segment.reach :=
  segment.reach_eq_max ▸ le_max_right ..

theorem reach_eq_dx (wide : segment.dy ≤ segment.dx) : (segment.reach : ℤ) = segment.dx := by
  rw [reach_eq_max, max_eq_left wide]

theorem reach_transpose (segment : Segment) : segment.transpose.reach = segment.reach := by
  rw [reach, reach, dx_transpose, dy_transpose, max_comm]

section Parts

/-- How much of a way is covered by so many steps of the walk, to the nearest cell. Of two that are equally
near it is the lesser. -/
def partOf (segment : Segment) (way : ℤ) (steps : ℕ) : ℤ :=
  (2 * way * steps + segment.reach - 1) / (2 * segment.reach)

theorem partOf_transpose (segment : Segment) (way : ℤ) (steps : ℕ) :
    segment.transpose.partOf way steps = segment.partOf way steps := by
  rw [partOf, partOf, reach_transpose]

/-- The covered part is told by its distance from the exact one, which is at most half a cell. -/
theorem partOf_eq_iff (long : 0 < segment.reach) :
    segment.partOf way steps = part ↔
      -(segment.reach : ℤ) ≤ 2 * (segment.reach * part - way * steps) ∧
        2 * (segment.reach * part - way * steps) < segment.reach := by
  rw [partOf, Int.ediv_eq_iff_of_pos (by omega)]
  constructor
  · rintro ⟨low, high⟩
    constructor <;> linarith
  · rintro ⟨low, high⟩
    constructor <;> linarith

theorem partOf_of_reach_eq_zero (short : segment.reach = 0) : segment.partOf way steps = 0 := by
  simp [partOf, short]

theorem abs_partOf_le (inside : way ≤ segment.reach) (nonneg : 0 ≤ way) :
    |2 * (segment.reach * segment.partOf way steps - way * steps)| ≤ segment.reach := by
  rcases Nat.eq_zero_or_pos segment.reach with short | long
  · obtain rfl : way = 0 := by omega
    simp [short]
  · rcases (partOf_eq_iff long).mp rfl with ⟨low, high⟩
    exact abs_le.mpr ⟨low, high.le⟩

@[simp]
theorem partOf_zero (segment : Segment) (way : ℤ) : segment.partOf way 0 = 0 := by
  rcases Nat.eq_zero_or_pos segment.reach with short | long
  · exact partOf_of_reach_eq_zero short
  · rw [partOf_eq_iff long]
    simp [long]

@[simp]
theorem partOf_zero_way (segment : Segment) (steps : ℕ) : segment.partOf 0 steps = 0 := by
  rcases Nat.eq_zero_or_pos segment.reach with short | long
  · exact partOf_of_reach_eq_zero short
  · rw [partOf_eq_iff long]
    simp [long]

/-- The whole way is covered by all steps. -/
theorem partOf_reach (inside : way ≤ segment.reach) (nonneg : 0 ≤ way) :
    segment.partOf way segment.reach = way := by
  rcases Nat.eq_zero_or_pos segment.reach with short | long
  · rw [partOf_of_reach_eq_zero short]
    omega
  · rw [partOf_eq_iff long, mul_comm way, sub_self]
    omega

/-- Along the longer side every step covers one cell. -/
theorem partOf_of_eq_reach (isLonger : way = segment.reach) (inside : steps ≤ segment.reach) :
    segment.partOf way steps = steps := by
  rcases Nat.eq_zero_or_pos segment.reach with short | long
  · rw [partOf_of_reach_eq_zero short]
    omega
  · rw [partOf_eq_iff long, isLonger, sub_self]
    omega

/-- A step covers a cell of a way or none. -/
theorem partOf_succ (inside : way ≤ segment.reach) (nonneg : 0 ≤ way) (steps : ℕ) :
    segment.partOf way (steps + 1) = segment.partOf way steps ∨
      segment.partOf way (steps + 1) = segment.partOf way steps + 1 := by
  rcases Nat.eq_zero_or_pos segment.reach with short | long
  · exact .inl ((partOf_of_reach_eq_zero short).trans (partOf_of_reach_eq_zero short).symm)
  · rcases (partOf_eq_iff long).mp (rfl : segment.partOf way steps = _) with ⟨low, high⟩
    rw [partOf_eq_iff long, partOf_eq_iff long]
    push_cast
    by_cases stays : -(segment.reach : ℤ) ≤
        2 * (segment.reach * segment.partOf way steps - way * (steps + 1))
    · exact .inl ⟨stays, by linarith⟩
    · exact .inr ⟨by linarith, by linarith⟩

theorem partOf_mem (nonneg : 0 ≤ way) (before : steps ≤ segment.reach) :
    0 ≤ segment.partOf way steps ∧ segment.partOf way steps ≤ way := by
  rcases Nat.eq_zero_or_pos segment.reach with short | long
  · rw [partOf_of_reach_eq_zero short]
    exact ⟨le_rfl, nonneg⟩
  · have covered : 0 ≤ way * steps := by positivity
    have left : way * steps ≤ way * segment.reach := by gcongr
    constructor
    · rw [partOf]
      exact Int.ediv_nonneg (by linarith) (by omega)
    · rw [partOf, ← Int.lt_add_one_iff, Int.ediv_lt_iff_lt_mul (by omega)]
      linarith

end Parts

section Course

theorem directionX_mul_partOf (segment : Segment) (steps : ℕ) :
    segment.directionX * segment.partOf segment.dx steps =
      (segment.x2 - segment.x1).sign * segment.partOf segment.dx steps := by
  rcases lt_trichotomy segment.x1 segment.x2 with right | same | left
  · rw [directionX, if_pos right, Int.sign_eq_one_of_pos (by omega)]
  · have isPoint : segment.dx = 0 := by simp [dx, same]
    simp [isPoint]
  · rw [directionX, if_neg (by omega), Int.sign_eq_neg_one_of_neg (by omega)]

theorem directionY_mul_partOf (segment : Segment) (steps : ℕ) :
    segment.directionY * segment.partOf segment.dy steps =
      (segment.y2 - segment.y1).sign * segment.partOf segment.dy steps := by
  have transposed := segment.transpose.directionX_mul_partOf steps
  rwa [partOf_transpose] at transposed

/-- The cell at which both sides of the segment are covered as far as after so many steps. -/
def courseAt (segment : Segment) (steps : ℕ) : ℤ × ℤ :=
  (segment.x1 + (segment.x2 - segment.x1).sign * segment.partOf segment.dx steps,
    segment.y1 + (segment.y2 - segment.y1).sign * segment.partOf segment.dy steps)

theorem courseAt_transpose (segment : Segment) (steps : ℕ) :
    segment.transpose.courseAt steps = (segment.courseAt steps).swap := by
  rw [courseAt, partOf_transpose, partOf_transpose]
  rfl

theorem cell_walkerAfter_of_wide (wide : segment.dy ≤ segment.dx) (inside : steps ≤ segment.reach) :
    (segment.walkerAfter steps).cell = segment.courseAt steps := by
  have isWidth := reach_eq_dx wide
  rcases Nat.eq_zero_or_pos segment.reach with short | long
  · obtain rfl : steps = 0 := by omega
    simp [walkerAfter, start, Walker.cell, courseAt]
  · rcases exists_hasMoved wide (by omega) steps with ⟨updown, moved, steady⟩
    have along : segment.partOf segment.dx steps = steps := partOf_of_eq_reach isWidth.symm inside
    have across : segment.partOf segment.dy steps = updown := by
      rw [partOf_eq_iff long, isWidth]
      exact ⟨steady.low, steady.high⟩
    rw [moved.cell, courseAt, ← directionX_mul_partOf, ← directionY_mul_partOf, along, across]
    rfl

/-- After so many steps the walker is where the course of the segment is. -/
theorem cell_walkerAfter (inside : steps ≤ segment.reach) :
    (segment.walkerAfter steps).cell = segment.courseAt steps := by
  rcases le_total segment.dy segment.dx with wide | high
  · exact cell_walkerAfter_of_wide wide inside
  · have transposed : (segment.transpose.walkerAfter steps).cell = segment.transpose.courseAt steps :=
      cell_walkerAfter_of_wide high (segment.reach_transpose ▸ inside)
    rw [walkerAfter_transpose, courseAt_transpose] at transposed
    exact congrArg Prod.swap transposed

theorem courseAt_zero (segment : Segment) : segment.courseAt 0 = (segment.x1, segment.y1) := by
  simp [courseAt]

theorem courseAt_reach (segment : Segment) :
    segment.courseAt segment.reach = (segment.x2, segment.y2) := by
  rw [courseAt, partOf_reach segment.dx_le_reach segment.dx_nonneg,
    partOf_reach segment.dy_le_reach segment.dy_nonneg, dx, dy, Int.sign_mul_natAbs, Int.sign_mul_natAbs]
  simp

theorem fst_courseAt_injOn (wide : segment.dy ≤ segment.dx) (inside : steps ≤ segment.reach)
    (otherInside : other ≤ segment.reach)
    (same : (segment.courseAt steps).1 = (segment.courseAt other).1) : steps = other := by
  have isWidth := reach_eq_dx wide
  rcases Nat.eq_zero_or_pos segment.reach with short | long
  · omega
  · have isSign : (segment.x2 - segment.x1).sign ≠ 0 := by
      rw [ne_eq, Int.sign_eq_zero_iff_zero]
      intro isPoint
      simp [dx, isPoint] at isWidth
      omega
    simp only [courseAt, add_right_inj, partOf_of_eq_reach isWidth.symm inside,
      partOf_of_eq_reach isWidth.symm otherInside] at same
    exact_mod_cast mul_left_cancel₀ isSign same

/-- The course comes to no cell twice. -/
theorem courseAt_injOn (inside : steps ≤ segment.reach) (otherInside : other ≤ segment.reach)
    (same : segment.courseAt steps = segment.courseAt other) : steps = other := by
  rcases le_total segment.dy segment.dx with wide | high
  · exact fst_courseAt_injOn wide inside otherInside (congrArg Prod.fst same)
  · have transposed : segment.transpose.courseAt steps = segment.transpose.courseAt other := by
      rw [courseAt_transpose, courseAt_transpose, same]
    have wide : segment.transpose.dy ≤ segment.transpose.dx := high
    rw [← reach_transpose] at inside otherInside
    exact fst_courseAt_injOn wide inside otherInside (congrArg Prod.fst transposed)

end Course

section Cells

theorem isAtEnd_iff (walker : Walker) :
    segment.isAtEnd walker = true ↔ walker.cell = (segment.x2, segment.y2) := by
  simp [isAtEnd, Walker.cell]

/-- The walk goes on before the last step. -/
theorem isAtEnd_of_lt (before : steps < segment.reach) :
    segment.isAtEnd (segment.walkerAfter steps) = false := by
  by_contra atEnd
  rw [Bool.not_eq_false, isAtEnd_iff, cell_walkerAfter before.le, ← courseAt_reach] at atEnd
  exact before.ne (courseAt_injOn before.le le_rfl atEnd)

theorem isAtEnd_reach (segment : Segment) :
    segment.isAtEnd (segment.walkerAfter segment.reach) = true := by
  rw [isAtEnd_iff, cell_walkerAfter le_rfl, courseAt_reach]

/-- A walker that comes to the second end leaves a trail up to there, however many steps it may take. -/
theorem trail_eq_map {walker : Walker} {count : ℕ} (enough : count ≤ steps)
    (goesOn : ∀ step < count, segment.isAtEnd (segment.step^[step] walker) = false)
    (arrives : segment.isAtEnd (segment.step^[count] walker) = true) :
    segment.trail steps walker =
      (List.range (count + 1)).map fun step => (segment.step^[step] walker).cell := by
  induction count generalizing walker steps with
  | zero =>
      cases steps with
      | zero => rfl
      | succ steps =>
          rw [trail, show segment.isAtEnd walker = true from arrives]
          rfl
  | succ count ih =>
      rcases Nat.exists_eq_add_of_lt enough with ⟨more, rfl⟩
      have notYet : segment.isAtEnd walker = false := goesOn 0 (by omega)
      have later := @ih (count + more) (segment.step walker) (by omega)
        (fun step before => goesOn (step + 1) (by omega)) arrives
      rw [trail, notYet, later, List.range_succ_eq_map (n := count + 1), List.map_cons, List.map_map]
      rfl

theorem cells_eq_map (segment : Segment) :
    segment.cells = (List.range (segment.reach + 1)).map segment.courseAt := by
  have width := segment.dx_nonneg
  have height := segment.dy_nonneg
  have enough : segment.reach ≤ (segment.dx + segment.dy).toNat := by
    have isReach := segment.reach_eq_max
    omega
  rw [cells, trail_eq_map enough (fun step before => isAtEnd_of_lt before) segment.isAtEnd_reach]
  refine List.map_congr_left fun step inside => cell_walkerAfter ?_
  rw [List.mem_range] at inside
  omega

theorem courseAt_mem_cells (inside : steps ≤ segment.reach) : segment.courseAt steps ∈ segment.cells := by
  rw [cells_eq_map]
  exact List.mem_map_of_mem (List.mem_range.mpr (Nat.lt_succ_of_le inside))

theorem forall_mem_cells {holds : ℤ × ℤ → Prop} :
    (∀ cell ∈ segment.cells, holds cell) ↔ ∀ steps ≤ segment.reach, holds (segment.courseAt steps) := by
  simp only [cells_eq_map, List.forall_mem_map, List.mem_range, Nat.lt_succ_iff]

end Cells

section Places

/-- The row and the column of a cell in the grid of the segment. -/
def gridPlace (segment : Segment) (cell : ℤ × ℤ) : ℤ × ℤ :=
  (cell.2 - (min segment.y1 segment.y2 - margin), cell.1 - (min segment.x1 segment.x2 - margin))

/-- How far into the grid one comes along a side of which a part is covered. -/
def placeAlong (first second part : ℤ) : ℤ :=
  first + (second - first).sign * part - (min first second - margin)

theorem gridPlace_courseAt (segment : Segment) (steps : ℕ) :
    segment.gridPlace (segment.courseAt steps) =
      (placeAlong segment.y1 segment.y2 (segment.partOf segment.dy steps),
        placeAlong segment.x1 segment.x2 (segment.partOf segment.dx steps)) := rfl

theorem placeAlong_mem {first second : ℤ} (nonneg : 0 ≤ part) (inside : part ≤ (second - first).natAbs) :
    2 ≤ placeAlong first second part ∧ placeAlong first second part ≤ (second - first).natAbs + 2 := by
  rw [placeAlong, margin]
  rcases lt_trichotomy first second with right | rfl | left
  · rw [Int.sign_eq_one_of_pos (by omega)]
    omega
  · simp
  · rw [Int.sign_eq_neg_one_of_neg (by omega)]
    omega

/-- Every cell has its place inside the margin of the grid. -/
theorem gridPlace_mem (segment : Segment) : ∀ cell ∈ segment.cells,
    (2 ≤ (segment.gridPlace cell).1 ∧ (segment.gridPlace cell).1 ≤ segment.dy + 2) ∧
      2 ≤ (segment.gridPlace cell).2 ∧ (segment.gridPlace cell).2 ≤ segment.dx + 2 := by
  rw [forall_mem_cells]
  intro steps inside
  rcases partOf_mem segment.dx_nonneg inside with ⟨fromLeft, toRight⟩
  rcases partOf_mem segment.dy_nonneg inside with ⟨fromTop, toBottom⟩
  rw [gridPlace_courseAt]
  exact ⟨placeAlong_mem fromTop toBottom, placeAlong_mem fromLeft toRight⟩

/-- Whether a cell has a row and a column in the grid of the segment. -/
structure HasPlace (segment : Segment) (cell : ℤ × ℤ) : Prop where
  row : 0 ≤ cell.2 - (min segment.y1 segment.y2 - margin) ∧
    cell.2 - (min segment.y1 segment.y2 - margin) < segment.height
  column : 0 ≤ cell.1 - (min segment.x1 segment.x2 - margin) ∧
    cell.1 - (min segment.x1 segment.x2 - margin) < segment.width

@[simp]
theorem height_eq (segment : Segment) : (segment.height : ℤ) = segment.dy + 5 := by
  have nonneg := segment.dy_nonneg
  rw [height, margin]
  omega

@[simp]
theorem width_eq (segment : Segment) : (segment.width : ℤ) = segment.dx + 5 := by
  have nonneg := segment.dx_nonneg
  rw [width, margin]
  omega

/-- The walk along a segment comes to its second end, and every cell on the way has its place in the
grid. -/
theorem cells_arrive (segment : Segment) :
    (∀ cell ∈ segment.cells, segment.HasPlace cell) ∧
      segment.cells.getLast? = some (segment.x2, segment.y2) := by
  constructor
  · intro cell inside
    rcases segment.gridPlace_mem cell inside with ⟨⟨top, bottom⟩, left, right⟩
    simp only [gridPlace] at top bottom left right
    exact ⟨⟨by omega, by rw [height_eq]; omega⟩, ⟨by omega, by rw [width_eq]; omega⟩⟩
  · rw [cells_eq_map, List.getLast?_map, List.getLast?_range, if_neg (Nat.succ_ne_zero _)]
    exact congrArg some segment.courseAt_reach

end Places

end Segment

end TermScene
