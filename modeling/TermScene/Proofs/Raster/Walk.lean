import Mathlib.Tactic.Linarith
import Mathlib.Tactic.Ring
import TermScene.Raster.Segment

/-!
# The walk along a segment

On a segment that is no higher than wide every step of the walker moves sideways, and some also move up or
down. The *drift* of a cell says how far it is from the segment, and on which side; the error term of the
walker is the drift of its cell, but for a constant. A step up or down is taken just when the drift would
become too great without it, so the drift never exceeds half the width of the segment.

A segment that is higher than wide is walked like the one that has its sides exchanged.
-/

namespace TermScene

def Walker.cell (walker : Walker) : ℤ × ℤ := (walker.x, walker.y)

/-- The walker with its sides exchanged. Its error term counts to the other side. -/
def Walker.transpose (walker : Walker) : Walker := ⟨walker.y, walker.x, -walker.error⟩

namespace Segment

variable {segment : Segment} {walker : Walker} {sideways updown : ℤ}

theorem dx_nonneg (segment : Segment) : 0 ≤ segment.dx := Int.natCast_nonneg _

theorem dy_nonneg (segment : Segment) : 0 ≤ segment.dy := Int.natCast_nonneg _

/-- The cell that is reached from the first end by so many moves sideways and up or down. -/
def cellAt (segment : Segment) (sideways updown : ℤ) : ℤ × ℤ :=
  (segment.x1 + segment.directionX * sideways, segment.y1 + segment.directionY * updown)

/-- How far a cell is from the segment: a move sideways takes it to one side and a move up or down to the
other. -/
def drift (segment : Segment) (sideways updown : ℤ) : ℤ :=
  segment.dx * updown - segment.dy * sideways

/-- A walker that has moved so often along either axis. -/
structure HasMoved (segment : Segment) (sideways updown : ℤ) (walker : Walker) : Prop where
  cell : walker.cell = segment.cellAt sideways updown
  error : walker.error = segment.dx - segment.dy + segment.drift sideways updown

theorem hasMoved_start (segment : Segment) : segment.HasMoved 0 0 segment.start := by
  constructor <;> simp [start, Walker.cell, cellAt, drift]

/-- The drift that a walker keeps on a segment that is no higher than wide. -/
structure IsSteady (segment : Segment) (sideways updown : ℤ) : Prop where
  low : -segment.dx ≤ 2 * segment.drift sideways updown
  high : 2 * segment.drift sideways updown < segment.dx
  goesOn : segment.dy - 2 * segment.dx < 2 * segment.drift sideways updown

theorem isSteady_start (wide : segment.dy ≤ segment.dx) (long : 0 < segment.dx) : segment.IsSteady 0 0 := by
  constructor <;> simp [drift] <;> omega

theorem drift_sideways (segment : Segment) (sideways updown : ℤ) :
    segment.drift (sideways + 1) updown = segment.drift sideways updown - segment.dy := by
  rw [drift, drift]
  ring

theorem drift_both (segment : Segment) (sideways updown : ℤ) :
    segment.drift (sideways + 1) (updown + 1) =
      segment.drift sideways updown - segment.dy + segment.dx := by
  rw [drift, drift]
  ring

theorem step_of_climbs (moves : -segment.dy < 2 * walker.error) (climbs : 2 * walker.error < segment.dx) :
    segment.step walker =
      ⟨walker.x + segment.directionX, walker.y + segment.directionY,
        walker.error - segment.dy + segment.dx⟩ := by
  simp [step, moves, climbs]

theorem step_of_level (moves : -segment.dy < 2 * walker.error) (level : ¬2 * walker.error < segment.dx) :
    segment.step walker = ⟨walker.x + segment.directionX, walker.y, walker.error - segment.dy⟩ := by
  simp [step, moves, level]

/-- A step on a segment that is no higher than wide moves sideways and keeps the drift. -/
theorem HasMoved.step (moved : segment.HasMoved sideways updown walker)
    (steady : segment.IsSteady sideways updown) (wide : segment.dy ≤ segment.dx) :
    ∃ next, segment.HasMoved (sideways + 1) next (segment.step walker) ∧
      segment.IsSteady (sideways + 1) next := by
  have error := moved.error
  have x : walker.x = segment.x1 + segment.directionX * sideways := congrArg Prod.fst moved.cell
  have y : walker.y = segment.y1 + segment.directionY * updown := congrArg Prod.snd moved.cell
  have height := segment.dy_nonneg
  rcases steady with ⟨low, high, goesOn⟩
  have moves : -segment.dy < 2 * walker.error := by omega
  by_cases climbs : 2 * walker.error < segment.dx
  · have both := segment.drift_both sideways updown
    refine ⟨updown + 1, ⟨?_, ?_⟩, ⟨by omega, by omega, by omega⟩⟩
    · rw [step_of_climbs moves climbs, Walker.cell, cellAt, x, y]
      ring_nf
    · rw [step_of_climbs moves climbs, both, error]
      ring
  · have level := segment.drift_sideways sideways updown
    refine ⟨updown, ⟨?_, ?_⟩, ⟨by omega, by omega, by omega⟩⟩
    · rw [step_of_level moves climbs, Walker.cell, cellAt, x, y]
      ring_nf
    · rw [step_of_level moves climbs, level, error]
      ring

/-- The walker after so many steps from the first end. -/
def walkerAfter (segment : Segment) (steps : ℕ) : Walker := segment.step^[steps] segment.start

theorem walkerAfter_succ (segment : Segment) (steps : ℕ) :
    segment.walkerAfter (steps + 1) = segment.step (segment.walkerAfter steps) :=
  Function.iterate_succ_apply' ..

/-- On a segment that is no higher than wide the walker has moved sideways in every step and has kept its
drift. -/
theorem exists_hasMoved (wide : segment.dy ≤ segment.dx) (long : 0 < segment.dx) (steps : ℕ) :
    ∃ updown, segment.HasMoved steps updown (segment.walkerAfter steps) ∧
      segment.IsSteady steps updown := by
  induction steps with
  | zero => exact ⟨0, segment.hasMoved_start, isSteady_start wide long⟩
  | succ steps ih =>
      rcases ih with ⟨updown, moved, steady⟩
      rcases moved.step steady wide with ⟨next, movedOn, stays⟩
      rw [walkerAfter_succ, Nat.cast_succ]
      exact ⟨next, movedOn, stays⟩

/-- The segment with its sides exchanged. -/
def transpose (segment : Segment) : Segment := ⟨segment.y1, segment.x1, segment.y2, segment.x2⟩

section Transpose

@[simp]
theorem dx_transpose (segment : Segment) : segment.transpose.dx = segment.dy := rfl

@[simp]
theorem dy_transpose (segment : Segment) : segment.transpose.dy = segment.dx := rfl

theorem start_transpose (segment : Segment) : segment.transpose.start = segment.start.transpose := by
  simp [start, Walker.transpose, transpose, dx, dy]

/-- Either step is the other one with its sides exchanged. -/
theorem step_transpose (segment : Segment) (walker : Walker) :
    segment.transpose.step walker.transpose = (segment.step walker).transpose := by
  have moves : -segment.dx < 2 * -walker.error ↔ 2 * walker.error < segment.dx := by omega
  have climbs : 2 * -walker.error < segment.dy ↔ -segment.dy < 2 * walker.error := by omega
  simp only [step, Walker.transpose, dx_transpose, dy_transpose, moves, climbs, Walker.mk.injEq]
  refine ⟨rfl, rfl, by omega⟩

theorem walkerAfter_transpose (segment : Segment) (steps : ℕ) :
    segment.transpose.walkerAfter steps = (segment.walkerAfter steps).transpose := by
  induction steps with
  | zero => exact segment.start_transpose
  | succ steps ih => rw [walkerAfter_succ, walkerAfter_succ, ih, step_transpose]

end Transpose

end Segment

end TermScene
