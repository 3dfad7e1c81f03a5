import TermScene.Proofs.Binary64.Steps
import TermScene.Proofs.Raster.Grid
import TermScene.Proofs.Raster.Memory

/-!
# Grids of discs

A disc whose diameter is a whole number lies evenly in its grid: it looks the same from every side, each
of its rows is set in one run, and the rim of the grid is clear. The disc with a radius larger by one holds
it, in a grid with one more cell on every side. For any other radius the cells do not reach as far from the
centre on one side as on the other, and only rows and columns can be exchanged. All of this holds with
distances computed exactly and as they are rounded. Up to a radius of `2 ^ 25` no distance that is less than
the radius is rounded to the radius, so that both grids are the same.
-/

namespace TermScene

/-- The number of lattice points of a disc to a side. -/
def discSide (radius : ℚ) : ℕ := ((2 * radius).floor + 1).toNat

/-- The grid of a disc with distances computed exactly. -/
def exactDisc (radius : ℚ) : Mask := discCells radius radius (discSide radius)

/-- A square grid that is its own transpose. -/
structure Mask.IsSymmetric (mask : Mask) (side : ℕ) : Prop where
  sides : mask.HasSides side side
  transpose : mask.transpose = mask

/-- The grid of a disc of a whole diameter, given how far from the centre its cells are set. -/
structure IsDisc (radius reach : ℚ) (diameter : ℕ) (mask : Mask) : Prop where
  symmetric : mask.IsSymmetric (diameter + 1)
  isSet_iff : ∀ row column : ℕ, mask.isSet row column = true ↔
    row ≤ diameter ∧ column ≤ diameter ∧
      ((row : ℚ) - radius) ^ 2 + ((column : ℚ) - radius) ^ 2 < reach ^ 2
  flipRows : mask.flipRows = mask
  flipColumns : mask.flipColumns = mask
  run : ∀ row, ∃ first stop, ∀ column,
    mask.isSet row column = true ↔ first ≤ column ∧ column < stop
  rim : ∀ row column, row = 0 ∨ row = diameter ∨ column = 0 ∨ column = diameter →
    mask.isSet row column = false

/-- A grid within one that has one more cell on every side. -/
structure Mask.LiesIn (mask larger : Mask) : Prop where
  height : larger.height = mask.height + 2
  width : larger.width = mask.width + 2
  isSet : ∀ row column, mask.isSet row column = true → larger.isSet (row + 1) (column + 1) = true

/-- Whether there is room for so many lattice points to a side. -/
def LatticeFits (count : ℕ) : Prop := coordinateOctets * count * count ≤ cellLimit

instance {count : ℕ} : Decidable (LatticeFits count) :=
  inferInstanceAs (Decidable (coordinateOctets * count * count ≤ cellLimit))

/-- A double with a finite value. -/
structure Binary64.Holds (number : Binary64) (value : ℚ) : Prop where
  isValue : number.value? = some value
  isDouble : round value = .finite value

section Cells

variable {radius reach : ℚ} {count row column : ℕ}

theorem discCells_eq_ofCells (radius reach : ℚ) (count : ℕ) :
    discCells radius reach count = Mask.ofCells count count fun row column =>
      decide (((row : ℚ) - radius) ^ 2 + ((column : ℚ) - radius) ^ 2 < reach ^ 2) := by
  simp only [discCells, discAxis, Mask.ofCells, List.map_map, Function.comp_def, pow_two, add_comm]

theorem isSet_discCells_iff :
    (discCells radius reach count).isSet row column = true ↔
      row < count ∧ column < count ∧
        ((row : ℚ) - radius) ^ 2 + ((column : ℚ) - radius) ^ 2 < reach ^ 2 := by
  rw [discCells_eq_ofCells, Mask.isSet_ofCells_iff, decide_eq_true_iff]

theorem isSymmetric_discCells (radius reach : ℚ) (count : ℕ) :
    (discCells radius reach count).IsSymmetric count := by
  rw [discCells_eq_ofCells]
  refine ⟨Mask.hasSides_ofCells .., ?_⟩
  rw [Mask.transpose_ofCells]
  exact Mask.ofCells_congr fun row _ column _ => by rw [add_comm]

theorem discCells_congr {other : ℚ}
    (same : ∀ row < count, ∀ column < count,
      ((row : ℚ) - radius) ^ 2 + ((column : ℚ) - radius) ^ 2 < reach ^ 2 ↔
        ((row : ℚ) - radius) ^ 2 + ((column : ℚ) - radius) ^ 2 < other ^ 2) :
    discCells radius reach count = discCells radius other count := by
  rw [discCells_eq_ofCells, discCells_eq_ofCells]
  exact Mask.ofCells_congr fun row inHeight column inWidth =>
    decide_eq_decide.mpr (same row inHeight column inWidth)

/-- Where all cells between two that are set are set as well, the set cells are one run. -/
theorem exists_run {isSet : ℕ → Prop} (bound : ℕ) (bounded : ∀ column, isSet column → column ≤ bound)
    (between : ∀ left middle right, left ≤ middle → middle ≤ right →
      isSet left → isSet right → isSet middle) :
    ∃ first stop, ∀ column, isSet column ↔ first ≤ column ∧ column < stop := by
  classical
  by_cases some : ∃ column, isSet column
  · rcases some with ⟨column, isColumn⟩
    have hasFirst : isSet (Nat.find ⟨column, isColumn⟩) := Nat.find_spec _
    have hasLast : isSet (Nat.findGreatest isSet bound) :=
      Nat.findGreatest_spec (bounded column isColumn) isColumn
    refine ⟨Nat.find ⟨column, isColumn⟩, Nat.findGreatest isSet bound + 1, fun other => ⟨?_, ?_⟩⟩
    · intro isOther
      have atMost := Nat.le_findGreatest (bounded other isOther) isOther
      exact ⟨Nat.find_min' _ isOther, by omega⟩
    · rintro ⟨after, before⟩
      exact between _ other _ after (by omega) hasFirst hasLast
  · exact ⟨0, 0, fun column => by simpa using fun isSet => some ⟨column, isSet⟩⟩

end Cells

section Whole

variable {radius reach : ℚ} {diameter row column : ℕ}

theorem discSide_eq (whole : 2 * radius = diameter) : discSide radius = diameter + 1 := by
  rw [discSide, whole, ← Int.cast_natCast, Rat.floor_intCast]
  omega

/-- The cell on the other side of the centre is as far from it. -/
theorem sq_mirror (whole : 2 * radius = diameter) (inside : row < diameter + 1) :
    (((diameter + 1 - 1 - row : ℕ) : ℚ) - radius) ^ 2 = ((row : ℚ) - radius) ^ 2 := by
  rw [Nat.add_sub_cancel, Nat.cast_sub (by omega), ← whole]
  ring

theorem flipRows_discCells (reach : ℚ) (whole : 2 * radius = diameter) :
    (discCells radius reach (diameter + 1)).flipRows = discCells radius reach (diameter + 1) := by
  rw [discCells_eq_ofCells, Mask.flipRows_ofCells]
  exact Mask.ofCells_congr fun row inHeight column _ => by rw [sq_mirror whole inHeight]

theorem flipColumns_discCells (reach : ℚ) (whole : 2 * radius = diameter) :
    (discCells radius reach (diameter + 1)).flipColumns = discCells radius reach (diameter + 1) := by
  rw [discCells_eq_ofCells, Mask.flipColumns_ofCells]
  exact Mask.ofCells_congr fun row _ column inWidth => by rw [sq_mirror whole inWidth]

/-- The cells on the rim are not nearer to the centre than the radius. -/
theorem sq_rim (whole : 2 * radius = diameter) (onRim : row = 0 ∨ row = diameter) :
    ((row : ℚ) - radius) ^ 2 = radius ^ 2 := by
  rcases onRim with rfl | rfl
  · simp
  · rw [← whole]
    ring

theorem sq_between {left middle right : ℚ} (after : left ≤ middle) (before : middle ≤ right) :
    middle ^ 2 ≤ left ^ 2 ∨ middle ^ 2 ≤ right ^ 2 := by
  rcases le_total 0 middle with nonneg | negative
  · right
    gcongr
  · left
    nlinarith

theorem isDisc_discCells (whole : 2 * radius = diameter) (nonneg : 0 ≤ reach) (short : reach ≤ radius) :
    IsDisc radius reach diameter (discCells radius reach (diameter + 1)) := by
  have bound : reach ^ 2 ≤ radius ^ 2 := by gcongr
  constructor
  case symmetric => exact isSymmetric_discCells ..
  case isSet_iff =>
    intro row column
    rw [isSet_discCells_iff, Nat.lt_succ_iff, Nat.lt_succ_iff]
  case flipRows => exact flipRows_discCells reach whole
  case flipColumns => exact flipColumns_discCells reach whole
  case run =>
    intro row
    refine exists_run diameter (fun column isSet => ?_) ?_
    · exact Nat.lt_succ_iff.mp (isSet_discCells_iff.mp isSet).2.1
    · intro left middle right after before isLeft isRight
      rw [isSet_discCells_iff] at isLeft isRight ⊢
      refine ⟨isLeft.1, by omega, ?_⟩
      have nearer : ((middle : ℚ) - radius) ^ 2 ≤ ((left : ℚ) - radius) ^ 2 ∨
          ((middle : ℚ) - radius) ^ 2 ≤ ((right : ℚ) - radius) ^ 2 :=
        sq_between (by simpa using after) (by simpa using before)
      rcases nearer with nearer | nearer
      · linarith [isLeft.2.2]
      · linarith [isRight.2.2]
  case rim =>
    intro row column onRim
    rw [← Bool.not_eq_true, isSet_discCells_iff]
    rintro ⟨-, -, inside⟩
    rcases (or_assoc.mpr onRim) with isRow | isColumn
    · nlinarith [sq_rim whole isRow, sq_nonneg ((column : ℚ) - radius)]
    · nlinarith [sq_rim whole isColumn, sq_nonneg ((row : ℚ) - radius)]

/-- A disc lies in the one whose radius is larger by one. -/
theorem discCells_liesIn {count : ℕ} {further : ℚ} (nonneg : 0 ≤ reach) (larger : reach ≤ further) :
    (discCells radius reach count).LiesIn (discCells (radius + 1) further (count + 2)) where
  height := by simp
  width := rfl
  isSet row column isSet := by
    have bound : reach ^ 2 ≤ further ^ 2 := by gcongr
    rw [isSet_discCells_iff] at isSet ⊢
    push_cast
    rw [add_sub_add_right_eq_sub, add_sub_add_right_eq_sub]
    exact ⟨by omega, by omega, by linarith⟩

end Whole

section Reach

variable {radius : ℚ} {diameter : ℕ}

/-- Distances from within half a step of the radius on are rounded to the radius or more. -/
theorem discReach_bounds (large : 1 / 2 ≤ radius) :
    radius - Binary64.gridStep radius / 2 ≤ discReach radius ∧ discReach radius ≤ radius := by
  have below := Binary64.below_bounds radius
  rw [discReach, if_neg (by linarith)]
  constructor <;> linarith

theorem gridStep_le_of_half_le (large : 1 / 2 ≤ radius) :
    Binary64.gridStep radius ≤ radius / 2 ^ 52 := by
  refine Binary64.gridStep_le ?_
  calc (2 : ℚ) ^ (-1022 : ℤ) ≤ 2 ^ (-1 : ℤ) := zpow_le_zpow_right₀ (by norm_num) (by norm_num)
    _ = 1 / 2 := by norm_num
    _ ≤ radius := large

/-- The radius of a disc of a whole diameter is zero or no less than a half. -/
theorem eq_zero_or_half_le (whole : 2 * radius = diameter) : radius = 0 ∨ 1 / 2 ≤ radius := by
  rcases Nat.eq_zero_or_pos diameter with rfl | positive
  · left
    simpa using whole
  · right
    have : (1 : ℚ) ≤ diameter := by exact_mod_cast positive
    linarith

theorem discReach_nonneg_le (whole : 2 * radius = diameter) :
    0 ≤ discReach radius ∧ discReach radius ≤ radius := by
  rcases eq_zero_or_half_le whole with rfl | large
  · simp [discReach]
  · have bounds := discReach_bounds large
    have step := gridStep_le_of_half_le large
    exact ⟨by linarith, bounds.2⟩

/-- Cells are set no less far from the centre if the radius is larger by one. -/
theorem discReach_le_add_one (whole : 2 * radius = diameter) (small : radius ≤ 2 ^ 32) :
    discReach radius ≤ discReach (radius + 1) := by
  have nonneg : (0 : ℚ) ≤ diameter := Nat.cast_nonneg diameter
  have bounds := discReach_bounds (show 1 / 2 ≤ radius + 1 by linarith)
  have step := gridStep_le_of_half_le (show 1 / 2 ≤ radius + 1 by linarith)
  have atMost := (discReach_nonneg_le whole).2
  linarith

/-- The squares of distances are multiples of one fourth, as is that of the radius. -/
theorem add_fourth_le {row column : ℕ} (whole : 2 * radius = diameter)
    (inside : ((row : ℚ) - radius) ^ 2 + ((column : ℚ) - radius) ^ 2 < radius ^ 2) :
    ((row : ℚ) - radius) ^ 2 + ((column : ℚ) - radius) ^ 2 + 1 / 4 ≤ radius ^ 2 := by
  have isRadius : radius = diameter / 2 := by linarith
  -- Four times the squares are integers, and those that differ do so by one at least.
  have integers : (2 * row - diameter : ℤ) ^ 2 + (2 * column - diameter : ℤ) ^ 2 < (diameter : ℤ) ^ 2 := by
    have scaled : ((2 * row - diameter : ℤ) : ℚ) ^ 2 + ((2 * column - diameter : ℤ) : ℚ) ^ 2 <
        ((diameter : ℤ) : ℚ) ^ 2 := by
      rw [isRadius] at inside
      push_cast
      linarith
    exact_mod_cast scaled
  have apart : ((2 * row - diameter : ℤ) : ℚ) ^ 2 + ((2 * column - diameter : ℤ) : ℚ) ^ 2 + 1 ≤
      ((diameter : ℤ) : ℚ) ^ 2 := by
    exact_mod_cast Int.add_one_le_iff.mpr integers
  rw [isRadius]
  push_cast at apart
  linarith

theorem sub_fourth_lt_discReach (large : 1 / 2 ≤ radius) (small : radius ≤ 2 ^ 25) :
    radius ^ 2 - 1 / 4 < discReach radius ^ 2 := by
  have step := Binary64.gridStep_pos radius
  have fine := gridStep_le_of_half_le large
  have bound : radius * Binary64.gridStep radius ≤ 1 / 4 := by
    calc radius * Binary64.gridStep radius ≤ 2 ^ 25 * (2 ^ 25 / 2 ^ 52) := by
          gcongr
          exact fine.trans (by gcongr)
      _ = 1 / 4 := by norm_num
  have square : (radius - Binary64.gridStep radius / 2) ^ 2 ≤ discReach radius ^ 2 :=
    pow_le_pow_left₀ (by linarith) (discReach_bounds large).1 2
  have positive : 0 < Binary64.gridStep radius ^ 2 := by positivity
  linarith [show (radius - Binary64.gridStep radius / 2) ^ 2 =
    radius ^ 2 - radius * Binary64.gridStep radius + Binary64.gridStep radius ^ 2 / 4 by ring]

/-- Up to a radius of `2 ^ 25` the same cells are set with distances rounded as with exact ones. -/
theorem discCells_discReach (whole : 2 * radius = diameter) (small : diameter ≤ 2 ^ 26) :
    discCells radius (discReach radius) (diameter + 1) = discCells radius radius (diameter + 1) := by
  rcases eq_zero_or_half_le whole with rfl | large
  · simp [discReach]
  · have bound : radius ≤ 2 ^ 25 := by
      have : (diameter : ℚ) ≤ 2 ^ 26 := by exact_mod_cast small
      linarith
    have reaches := discReach_nonneg_le whole
    refine discCells_congr fun row _ column _ => ⟨fun near => ?_, fun inside => ?_⟩
    · exact near.trans_le (pow_le_pow_left₀ reaches.1 reaches.2 2)
    · linarith [add_fourth_le whole inside, sub_fourth_lt_discReach large bound]

end Reach

section Running

variable {number : Binary64} {radius : ℚ}

theorem latticeSize_eq_ok {count : ℤ} (nonneg : 0 ≤ count) (fits : LatticeFits count.toNat) :
    latticeSize count = .ok count.toNat := by
  have small := count_le_of_octets fits
  have notPast := past_le_eq_false nonneg (by omega)
  have notPast' := past_lt_eq_false nonneg (by omega)
  simp only [latticeSize, notPast, notPast', Bool.false_eq_true, if_false]
  rw [if_neg (not_lt.mpr fits)]

theorem lt_of_latticeFits (fits : LatticeFits (discSide radius)) : 2 * radius < 2 ^ 31 := by
  have count := count_le_of_octets fits
  have below : 2 * radius < ((2 * radius).floor : ℚ) + 1 := Int.lt_floor_add_one _
  have bound : (2 * radius).floor + 1 ≤ 2 ^ 31 := by
    rw [discSide] at count
    omega
  exact below.trans_le (by exact_mod_cast bound)

/-- Twice a radius is computed exactly. -/
theorem floor_two_mul (holds : number.Holds radius) (nonneg : 0 ≤ radius) (small : 2 * radius < 2 ^ 31) :
    (Binary64.ofInt 2 * number).floor = .ok (2 * radius).floor := by
  have two : (Binary64.ofInt 2).value? = some 2 := by decide +kernel
  rcases Binary64.exists_mul_eq two holds.isValue with ⟨negative, isDouble⟩
  rw [isDouble, Binary64.roundSigned]
  split
  · rename_i isZero
    rw [isZero]
    cases negative <;> rfl
  · have isRadius : Binary64.nearest radius = radius := by
      have rounded := holds.isDouble
      rwa [Binary64.round_eq_finite nonneg (show radius ≤ 2 ^ 31 by linarith) (by norm_num),
        Binary64.finite.injEq] at rounded
    rw [Binary64.round_eq_finite (by linarith) small.le (by norm_num),
      Binary64.nearest_two_mul nonneg isRadius]
    rfl

theorem discMask_eq_ok (holds : number.Holds radius) (nonneg : 0 ≤ radius)
    (fits : LatticeFits (discSide radius)) :
    discMask number = .ok (discCells radius (discReach radius) (discSide radius)) := by
  have isValue := holds.isValue
  have isNonneg : (Binary64.ofInt 0).le number = true := by
    have zero : Binary64.ofInt 0 = .finite 0 := Binary64.round_zero
    rw [zero]
    cases number with
    | finite value =>
        rw [Binary64.value?, Option.some.injEq] at isValue
        simpa [Binary64.le, Binary64.value?, isValue] using nonneg
    | negativeZero => simp [Binary64.le, Binary64.value?]
    | infinity negative => simp [Binary64.value?] at isValue
    | nan => simp [Binary64.value?] at isValue
  have floorNonneg : 0 ≤ (2 * radius).floor := Rat.le_floor_iff.mpr (by push_cast; linarith)
  have isSize : latticeSize ((2 * radius).floor + 1) = .ok (discSide radius) :=
    latticeSize_eq_ok (by omega) fits
  rw [discMask, if_pos isNonneg, floor_two_mul holds nonneg (lt_of_latticeFits fits)]
  simp only [Except.mapError, bind, Except.bind, isSize, isValue, Option.getD_some]
  rfl

end Running

section Discs

variable {radius : ℚ} {diameter : ℕ}

theorem isDisc_exactDisc (whole : 2 * radius = diameter) :
    IsDisc radius radius diameter (exactDisc radius) := by
  have nonneg : (0 : ℚ) ≤ diameter := Nat.cast_nonneg diameter
  rw [exactDisc, discSide_eq whole]
  exact isDisc_discCells whole (by linarith) le_rfl

theorem discSide_add_one (whole : 2 * radius = diameter) : discSide (radius + 1) = diameter + 1 + 2 := by
  have isLarger : 2 * (radius + 1) = ((diameter + 2 : ℕ) : ℚ) := by
    push_cast
    linarith
  rw [discSide_eq isLarger]

theorem exactDisc_liesIn (whole : 2 * radius = diameter) :
    (exactDisc radius).LiesIn (exactDisc (radius + 1)) := by
  have nonneg : (0 : ℚ) ≤ diameter := Nat.cast_nonneg diameter
  rw [exactDisc, exactDisc, discSide_eq whole, discSide_add_one whole]
  exact discCells_liesIn (by linarith) (by linarith)

end Discs

/-- The grid of a disc is symmetric, and all the more so if the diameter of the disc is a whole number. This
holds with distances computed exactly, and of what is drawn as long as there is room for it, which up to a
radius of `2 ^ 25` is the same grid. -/
theorem discMask_isDisc :
    (∀ (radius : ℚ) (diameter : ℕ), 2 * radius = diameter →
      IsDisc radius radius diameter (exactDisc radius) ∧
      (exactDisc radius).LiesIn (exactDisc (radius + 1)) ∧
      ∀ number : Binary64, number.Holds radius → LatticeFits (diameter + 1) →
        ∃ mask, discMask number = .ok mask ∧ IsDisc radius (discReach radius) diameter mask ∧
          (diameter ≤ 2 ^ 26 → mask = exactDisc radius) ∧
          ∀ next larger, next.Holds (radius + 1) → LatticeFits (diameter + 3) →
            discMask next = .ok larger → mask.LiesIn larger) ∧
    ∀ radius : ℚ, 0 < radius →
      (exactDisc radius).IsSymmetric (discSide radius) ∧
      ∀ number : Binary64, number.Holds radius → LatticeFits (discSide radius) →
        ∃ mask, discMask number = .ok mask ∧ mask.IsSymmetric (discSide radius) := by
  constructor
  · intro radius diameter whole
    refine ⟨isDisc_exactDisc whole, exactDisc_liesIn whole, fun number holds fits => ?_⟩
    have nonneg : (0 : ℚ) ≤ diameter := Nat.cast_nonneg diameter
    have reaches := discReach_nonneg_le whole
    have side := discSide_eq whole
    have drawn := discMask_eq_ok holds (by linarith) (side ▸ fits)
    rw [side] at drawn
    refine ⟨_, drawn, isDisc_discCells whole reaches.1 reaches.2, fun small => ?_, ?_⟩
    · rw [exactDisc, side, discCells_discReach whole small]
    · intro next larger nextHolds nextFits isLarger
      have nextSide := discSide_add_one whole
      have bound := lt_of_latticeFits (side.symm ▸ fits : LatticeFits (discSide radius))
      rw [discMask_eq_ok nextHolds (by linarith) (nextSide ▸ nextFits), nextSide,
        Except.ok.injEq] at isLarger
      rw [← isLarger]
      exact discCells_liesIn reaches.1 (discReach_le_add_one whole (by linarith))
  · intro radius positive
    refine ⟨isSymmetric_discCells .., fun number holds fits => ?_⟩
    exact ⟨_, discMask_eq_ok holds positive.le fits, isSymmetric_discCells ..⟩

/-- A disc of three cells across and one whose diameter is no whole number. -/
theorem discMask_isDisc_small :
    discMask (.finite (3 / 2)) = .ok (exactDisc (3 / 2)) ∧
      (exactDisc (3 / 2)).LiesIn (exactDisc (3 / 2 + 1)) ∧
      ∃ mask, discMask (.finite (3 / 4)) = .ok mask ∧ mask.IsSymmetric 2 := by
  have held : (Binary64.finite (3 / 2)).Holds (3 / 2) := ⟨rfl, by decide +kernel⟩
  have held' : (Binary64.finite (3 / 4)).Holds (3 / 4) := ⟨rfl, by decide +kernel⟩
  rcases discMask_isDisc.1 (3 / 2) 3 (by norm_num) with ⟨-, liesIn, running⟩
  rcases running _ held (by decide +kernel) with ⟨mask, drawn, -, exact', -⟩
  have side : discSide (3 / 4) = 2 := by decide +kernel
  rcases (discMask_isDisc.2 (3 / 4) (by norm_num)).2 _ held' (side ▸ by decide +kernel) with
    ⟨other, drawn', symmetric⟩
  rw [side] at symmetric
  exact ⟨exact' (by norm_num) ▸ drawn, liesIn, other, drawn', symmetric⟩

/-- The grid of the second disc does not look the same from above and from below. -/
example : (exactDisc (3 / 4)).flipRows ≠ exactDisc (3 / 4) := by decide +kernel

end TermScene
