import TermScene.Drawing
import TermScene.Proofs.Binary64.Sizes

/-!
# Grids that are refused

The numbers of a program are finite and not negative, so every size in it is a number of cells. What can
keep a shape from being drawn is then only the size of its grid: a grid is refused if a side of it, or
what it takes in all, is more than a machine word counts.
-/

namespace TermScene

namespace MaskFailure

/-- Whether a grid is refused for the room that it takes. -/
def IsRoom : MaskFailure → Prop
  | .unbounded _ => False
  | .longSide => True
  | .longAxis => True
  | .tooManyCells => True

end MaskFailure

/-- Whether the sides of a grid and its cells can be counted. -/
def GridFits (height width : ℕ) : Prop :=
  height ≤ cellLimit ∧ width ≤ cellLimit ∧ height * width ≤ cellLimit

/-- Whether there is room for the grid of a drawing. For a disc the coordinates of its cells take room as
well. -/
def Drawing.Fits : Drawing → Prop
  | .circle _ _ radius _ => ∀ diameter, (Binary64.ofInt 2 * radius).floor = .ok diameter →
      coordinateOctets * (diameter + 1).toNat * (diameter + 1).toNat ≤ cellLimit
  | .rect _ _ width height _ => ∀ rows columns, height.ceil = .ok rows → width.ceil = .ok columns →
      GridFits rows.toNat columns.toNat
  | .text .. => True
  | .line x1 y1 x2 y2 _ => ∀ segment, segmentOf x1 y1 x2 y2 = .ok segment →
      GridFits segment.height segment.width

/-- Something is made, unless there is no room for it. -/
def MadeIf (fits : Prop) {α : Type} (result : Except MaskFailure α) : Prop :=
  (∃ made, result = .ok made) ∨ ∃ cause, result = .error cause ∧ cause.IsRoom ∧ ¬fits

theorem MadeIf.bind {fits : Prop} {α β : Type} {first : Except MaskFailure α}
    {next : α → Except MaskFailure β} (isFirst : MadeIf fits first)
    (isNext : ∀ made, first = .ok made → MadeIf fits (next made)) : MadeIf fits (first >>= next) := by
  rcases isFirst with ⟨made, isMade⟩ | ⟨cause, isMade, isRoom⟩
  · rw [isMade]
    exact isNext made isMade
  · rw [isMade]
    exact .inr ⟨cause, rfl, isRoom⟩

theorem MadeIf.imp {fits others : Prop} {α : Type} {result : Except MaskFailure α}
    (made : MadeIf fits result) (fit : others → fits) : MadeIf others result :=
  made.imp_right fun ⟨cause, isMade, isRoom, tooLarge⟩ =>
    ⟨cause, isMade, isRoom, mt fit tooLarge⟩

section Masks

variable {exponent : ℕ}

theorem checkSides_madeIf (height width : ℕ) :
    MadeIf (GridFits height width) (checkSides height width) := by
  unfold checkSides
  split
  · rename_i long
    refine .inr ⟨.longSide, rfl, trivial, ?_⟩
    rintro ⟨high, wide, -⟩
    omega
  · split
    · rename_i many
      refine .inr ⟨.tooManyCells, rfl, trivial, ?_⟩
      rintro ⟨-, -, all⟩
      omega
    · exact .inl ⟨(), rfl⟩

/-- As doubles, small counts do not reach what is past the greatest one. -/
theorem past_le_eq_false {count : ℤ} (nonneg : 0 ≤ count) (small : count ≤ 2 ^ 32) :
    (Binary64.ofInt (cellLimit + 1 : ℕ)).le (.ofInt count) = false := by
  have past : Binary64.ofInt (cellLimit + 1 : ℕ) = .finite (2 ^ 63) := by decide +kernel
  have bound : (count : ℚ) ≤ 2 ^ 32 := by exact_mod_cast small
  rcases Binary64.IsSize.round (by exact_mod_cast nonneg) bound (by norm_num) with ⟨held, isHeld, -, isBound⟩
  have below : held < 2 ^ 63 := isBound.trans_lt (by norm_num)
  rw [past, Binary64.ofInt, isHeld]
  simpa [Binary64.le, Binary64.value?] using below

theorem past_lt_eq_false {count : ℤ} (nonneg : 0 ≤ count) (small : count ≤ 2 ^ 32) :
    (Binary64.ofInt (cellLimit + 1 : ℕ)).lt (.ofInt count) = false := by
  rw [Binary64.lt, past_le_eq_false nonneg small, Bool.false_and]

/-- Where the coordinates of a lattice can be counted, its sides are small. -/
theorem count_le_of_octets {count : ℕ} (fits : coordinateOctets * count * count ≤ cellLimit) :
    count ≤ 2 ^ 31 := by
  simp only [coordinateOctets, cellLimit] at fits
  by_contra large
  nlinarith

theorem latticeSize_madeIf {count : ℤ} (nonneg : 0 ≤ count) :
    MadeIf (coordinateOctets * count.toNat * count.toNat ≤ cellLimit) (latticeSize count) := by
  simp only [latticeSize]
  split_ifs with isPast isLimit many
  · refine .inr ⟨.longAxis, rfl, trivial, fun fits => ?_⟩
    have small := count_le_of_octets fits
    rw [past_lt_eq_false nonneg (by omega)] at isPast
    cases isPast
  · exact .inl ⟨0, rfl⟩
  · exact .inr ⟨.tooManyCells, rfl, trivial, not_le.mpr many⟩
  · exact .inl ⟨_, rfl⟩

theorem discMask_madeIf {radius x y : Binary64} {fill : String} (isSize : radius.IsSize exponent)
    (small : exponent + 1 < 1023) : MadeIf (Drawing.circle x y radius fill).Fits (discMask radius) := by
  unfold discMask
  split
  · rcases isSize.floor_double small with ⟨diameter, isDiameter, nonneg⟩
    rw [isDiameter]
    refine ((latticeSize_madeIf (by omega)).imp fun fits => ?_).bind fun count _ => .inl ⟨_, rfl⟩
    exact fits diameter isDiameter
  · exact .inl ⟨_, rfl⟩

theorem rectMask_madeIf {width height x y : Binary64} {fill : String} (isWidth : width.IsSize exponent)
    (isHeight : height.IsSize exponent) :
    MadeIf (Drawing.rect x y width height fill).Fits (rectMask width height) := by
  rcases isHeight.onFinite Rat.ceil with ⟨rows, isRows⟩
  rcases isWidth.onFinite Rat.ceil with ⟨columns, isColumns⟩
  rw [rectMask, Binary64.ceil, isRows, Binary64.ceil, isColumns]
  refine ((checkSides_madeIf _ _).imp fun fits => ?_).bind fun _ _ => .inl ⟨_, rfl⟩
  exact fits rows columns isRows isColumns

theorem exists_segmentOf {x1 y1 x2 y2 : Binary64}
    (sizes : ∀ number ∈ [x1, y1, x2, y2], number.IsSize exponent) :
    ∃ segment, segmentOf x1 y1 x2 y2 = .ok segment := by
  have cut {number : Binary64} (inside : number ∈ [x1, y1, x2, y2]) :
      ∃ whole, number.truncate = .ok whole := (sizes number inside).onFinite _
  rcases @cut x1 (by simp) with ⟨left, isLeft⟩
  rcases @cut y1 (by simp) with ⟨top, isTop⟩
  rcases @cut x2 (by simp) with ⟨right, isRight⟩
  rcases @cut y2 (by simp) with ⟨bottom, isBottom⟩
  rw [segmentOf, isLeft, isTop, isRight, isBottom]
  exact ⟨_, rfl⟩

theorem segmentMask_madeIf {x1 y1 x2 y2 : Binary64} {color : String}
    (sizes : ∀ number ∈ [x1, y1, x2, y2], number.IsSize exponent) :
    MadeIf (Drawing.line x1 y1 x2 y2 color).Fits (segmentMask x1 y1 x2 y2) := by
  rcases exists_segmentOf sizes with ⟨segment, isSegment⟩
  rw [segmentMask, isSegment]
  refine ((checkSides_madeIf _ _).imp fun fits => ?_).bind fun _ _ => .inl ⟨_, rfl⟩
  exact fits segment isSegment

end Masks

end TermScene
