import TermScene.Proofs.Binary64.Sizes

/-!
# Quotients rounded up

A quotient of integers is rounded to a double before it is rounded up to an integer. Up to `2 ^ 53` the first
rounding does not matter: all integers are on the grid, so it does not pass one; and a quotient that is no
integer is farther from the integer below it than half a step of the grid, so it is not rounded down to that.
-/

namespace TermScene

section Exponents

variable {value : ℚ}

theorem log2_bounds {number : ℕ} (positive : number ≠ 0) :
    (2 : ℚ) ^ (number.log2 : ℤ) ≤ number ∧ (number : ℚ) < 2 ^ ((number.log2 : ℤ) + 1) := by
  constructor
  · exact_mod_cast Nat.log2_self_le positive
  · exact_mod_cast (Nat.lt_log2_self : number < 2 ^ (number.log2 + 1))

/-- A positive number lies between two powers of two that follow on each other, the lower one included. -/
theorem floorLog2_bounds (positive : 0 < value) :
    (2 : ℚ) ^ floorLog2 value ≤ value ∧ value < 2 ^ (floorLog2 value + 1) := by
  have two : (2 : ℚ) ≠ 0 := by norm_num
  have isNum : ((value.num.natAbs : ℕ) : ℚ) = value.num := by
    rw [Nat.cast_natAbs, abs_of_nonneg (Rat.num_nonneg.mpr positive.le)]
  have numBounds := log2_bounds (Int.natAbs_ne_zero.mpr (Rat.num_ne_zero.mpr positive.ne'))
  have denBounds := log2_bounds value.den_ne_zero
  rw [isNum] at numBounds
  have isPositive : (0 : ℚ) < value.den := by exact_mod_cast value.den_pos
  have isQuotient : (value.num : ℚ) / value.den = value := Rat.num_div_den value
  have above : (2 : ℚ) ^ ((value.num.natAbs.log2 : ℤ) - value.den.log2 - 1) ≤ value := by
    conv_rhs => rw [← isQuotient]
    rw [le_div_iff₀ isPositive]
    calc (2 : ℚ) ^ ((value.num.natAbs.log2 : ℤ) - value.den.log2 - 1) * value.den
        ≤ 2 ^ ((value.num.natAbs.log2 : ℤ) - value.den.log2 - 1) * 2 ^ ((value.den.log2 : ℤ) + 1) := by
          gcongr
          exact denBounds.2.le
      _ = 2 ^ (value.num.natAbs.log2 : ℤ) := by
          rw [← zpow_add₀ two]
          congr 1
          ring
      _ ≤ value.num := numBounds.1
  have below : value < (2 : ℚ) ^ ((value.num.natAbs.log2 : ℤ) - value.den.log2 + 1) := by
    conv_lhs => rw [← isQuotient]
    rw [div_lt_iff₀ isPositive]
    calc (value.num : ℚ) < 2 ^ ((value.num.natAbs.log2 : ℤ) + 1) := numBounds.2
      _ = 2 ^ ((value.num.natAbs.log2 : ℤ) - value.den.log2 + 1) * 2 ^ (value.den.log2 : ℤ) := by
          rw [← zpow_add₀ two]
          congr 1
          ring
      _ ≤ 2 ^ ((value.num.natAbs.log2 : ℤ) - value.den.log2 + 1) * value.den := by
          gcongr
          exact denBounds.1
  simp only [floorLog2, twoPow_eq_zpow]
  split
  · rename_i isBelow
    exact ⟨above, by rwa [sub_add_cancel]⟩
  · rename_i isAbove
    exact ⟨not_lt.mp isAbove, below⟩

theorem floorLog2_lt {exponent : ℤ} (positive : 0 < value) (small : value < 2 ^ exponent) :
    floorLog2 value < exponent := by
  have bound := (floorLog2_bounds positive).1.trans_lt small
  exact (zpow_lt_zpow_iff_right₀ (by norm_num)).mp bound

end Exponents

namespace Binary64

variable {value : ℚ}

section Grid

theorem gridStep_pos (size : ℚ) : 0 < gridStep size :=
  lt_of_lt_of_le (by positivity) (gridStep_ge size)

theorem roundTiesToEven_le {bound : ℤ} (below : value ≤ bound) : roundTiesToEven value ≤ bound := by
  have error := abs_le.mp (roundTiesToEven_error value)
  have isBelow : (roundTiesToEven value : ℚ) < bound + 1 := by linarith
  exact Int.lt_add_one_iff.mp (by exact_mod_cast isBelow)

/-- A number more than one half above an integer is not rounded down to it. -/
theorem lt_roundTiesToEven {bound : ℤ} (above : bound + 1 / 2 < value) : bound < roundTiesToEven value := by
  have error := abs_le.mp (roundTiesToEven_error value)
  have isAbove : (bound : ℚ) < roundTiesToEven value := by linarith
  exact_mod_cast isAbove

theorem nearest_eq (positive : 0 < value) :
    nearest value = roundTiesToEven (value / gridStep value) * gridStep value := by
  rw [nearest, if_neg positive.ne', magnitude_eq_abs, abs_of_pos positive]

/-- Rounding does not pass a point of the grid. -/
theorem nearest_le {multiple : ℤ} (positive : 0 < value) (below : value ≤ multiple * gridStep value) :
    nearest value ≤ multiple * gridStep value := by
  have step := gridStep_pos value
  have rounded := roundTiesToEven_le ((div_le_iff₀ step).mpr below)
  rw [nearest_eq positive]
  gcongr

/-- What is more than half a step above a point of the grid is not rounded down to it. -/
theorem lt_nearest {multiple : ℤ} (positive : 0 < value)
    (above : multiple * gridStep value + gridStep value / 2 < value) :
    multiple * gridStep value < nearest value := by
  have step := gridStep_pos value
  have rounded : multiple < roundTiesToEven (value / gridStep value) := by
    apply lt_roundTiesToEven
    rw [lt_div_iff₀ step]
    linarith
  rw [nearest_eq positive]
  gcongr

/-- Where a step of the grid is not greater than one, every integer is on the grid. -/
theorem exists_multiple (positive : 0 < value) (small : value < 2 ^ 53) (whole : ℤ) :
    ∃ multiple : ℤ, (whole : ℚ) = multiple * gridStep value := by
  have exponent : floorLog2 value < 53 := floorLog2_lt positive (by exact_mod_cast small)
  obtain ⟨places, isStep⟩ : ∃ places : ℕ, max (floorLog2 value - 52) (-1074) = -places :=
    ⟨(-max (floorLog2 value - 52) (-1074)).toNat, by omega⟩
  refine ⟨whole * 2 ^ places, ?_⟩
  rw [gridStep, twoPow_eq_zpow, isStep, zpow_neg, zpow_natCast]
  push_cast
  field_simp

/-- A step of the grid is at most a 52nd power of one half of the number, unless the number is too small. -/
theorem half_gridStep (normal : (2 : ℚ) ^ (-1022 : ℤ) ≤ value) :
    gridStep value / 2 = 2 ^ floorLog2 value / 2 ^ 53 := by
  have positive : 0 < value := lt_of_lt_of_le (by positivity) normal
  have exponent : -1022 < floorLog2 value + 1 :=
    (zpow_lt_zpow_iff_right₀ (by norm_num)).mp (normal.trans_lt (floorLog2_bounds positive).2)
  rw [gridStep, twoPow_eq_zpow, max_eq_left (by omega), zpow_sub₀ (by norm_num)]
  norm_num
  ring

end Grid

section Ceiling

/-- A power of two below `2 ^ 53` is an integer or less than one. -/
theorem ceil_sub_one_add_lt_of_power (isPower : (2 : ℚ) ^ floorLog2 value = value)
    (small : value < 2 ^ 53) : (value.ceil : ℚ) - 1 + value / 2 ^ 53 < value := by
  have positive : 0 < value := isPower ▸ (by positivity)
  rcases lt_or_ge (floorLog2 value) 0 with fraction | whole
  · have isFraction : value < 1 := isPower ▸ zpow_lt_one_of_neg₀ (by norm_num) fraction
    have isCeil : value.ceil ≤ 1 := Rat.ceil_le_iff.mpr (by exact_mod_cast isFraction.le)
    have ceilBound : (value.ceil : ℚ) ≤ 1 := by exact_mod_cast isCeil
    linarith
  · obtain ⟨exponent, isExponent⟩ := Int.eq_ofNat_of_zero_le whole
    have isInteger : value = ((2 ^ exponent : ℤ) : ℚ) := by
      rw [← isPower, isExponent]
      norm_cast
    have isCeil : (value.ceil : ℚ) = value := by
      rw [isInteger, Rat.ceil_intCast]
    rw [isCeil]
    linarith

variable {dividend divisor : ℤ}

/-- A quotient is at least one part of the divisor above an integer below it. -/
theorem add_part_le {whole : ℤ} (hasDivisor : 0 < divisor) (below : (whole : ℚ) < (dividend : ℚ) / divisor) :
    (whole : ℚ) + 1 / divisor ≤ (dividend : ℚ) / divisor := by
  have isPositive : (0 : ℚ) < divisor := by exact_mod_cast hasDivisor
  rw [lt_div_iff₀ isPositive] at below
  have product : whole * divisor + 1 ≤ dividend := Int.add_one_le_iff.mpr (by exact_mod_cast below)
  rw [le_div_iff₀ isPositive, add_mul, one_div, inv_mul_cancel₀ isPositive.ne']
  exact_mod_cast product

/-- A quotient lies more than half a step of the grid above the integer below its ceiling. -/
theorem ceil_sub_one_add_lt (positive : 0 < dividend) (hasDivisor : 0 < divisor)
    (bound : dividend ≤ 2 ^ 53) (divisorBound : divisor ≤ 2 ^ 53)
    (small : (dividend : ℚ) / divisor < 2 ^ 53) :
    (((dividend : ℚ) / divisor).ceil : ℚ) - 1 + gridStep ((dividend : ℚ) / divisor) / 2 <
      (dividend : ℚ) / divisor := by
  have isPositive : (0 : ℚ) < divisor := by exact_mod_cast hasDivisor
  have isBound : (dividend : ℚ) ≤ 2 ^ 53 := by exact_mod_cast bound
  have isDivisorBound : (divisor : ℚ) ≤ 2 ^ 53 := by exact_mod_cast divisorBound
  have atLeast : (1 : ℚ) ≤ dividend := by exact_mod_cast positive
  have quotientPositive : 0 < (dividend : ℚ) / divisor := by positivity
  have normal : (2 : ℚ) ^ (-1022 : ℤ) ≤ (dividend : ℚ) / divisor := by
    calc (2 : ℚ) ^ (-1022 : ℤ) ≤ 2 ^ (-53 : ℤ) := zpow_le_zpow_right₀ (by norm_num) (by norm_num)
      _ = 1 / 2 ^ 53 := by norm_num
      _ ≤ (dividend : ℚ) / divisor := by gcongr
  rw [half_gridStep normal]
  rcases (floorLog2_bounds quotientPositive).1.eq_or_lt with isPower | between
  · rw [isPower]
    exact ceil_sub_one_add_lt_of_power isPower small
  · have isAbove : (((((dividend : ℚ) / divisor).ceil - 1 : ℤ)) : ℚ) < (dividend : ℚ) / divisor :=
      Rat.lt_ceil_iff.mp (sub_one_lt _)
    have halfStep : 2 ^ floorLog2 ((dividend : ℚ) / divisor) / 2 ^ 53 < 1 / (divisor : ℚ) := by
      calc 2 ^ floorLog2 ((dividend : ℚ) / divisor) / 2 ^ 53
          < (dividend : ℚ) / divisor / 2 ^ 53 := by gcongr
        _ = dividend / 2 ^ 53 / (divisor : ℚ) := div_right_comm ..
        _ ≤ 1 / (divisor : ℚ) := by
            gcongr
            exact (div_le_one (by norm_num)).mpr isBound
    have part := add_part_le hasDivisor isAbove
    push_cast at part
    linarith

/-- Up to `2 ^ 53` a quotient that is rounded to a double has the same ceiling as the exact one. -/
theorem ceil_nearest_div (positive : 0 < dividend) (hasDivisor : 0 < divisor)
    (bound : dividend ≤ 2 ^ 53) (divisorBound : divisor ≤ 2 ^ 53) :
    (nearest ((dividend : ℚ) / divisor)).ceil = ((dividend : ℚ) / divisor).ceil := by
  have isPositive : (0 : ℚ) < divisor := by exact_mod_cast hasDivisor
  have isBound : (dividend : ℚ) ≤ 2 ^ 53 := by exact_mod_cast bound
  have atLeast : (1 : ℚ) ≤ divisor := by exact_mod_cast hasDivisor
  have quotientPositive : 0 < (dividend : ℚ) / divisor := by
    have : (0 : ℚ) < dividend := by exact_mod_cast positive
    positivity
  have quotientBound : (dividend : ℚ) / divisor ≤ 2 ^ 53 :=
    (div_le_self (by exact_mod_cast positive.le) atLeast).trans isBound
  rcases quotientBound.eq_or_lt with isLast | small
  · have onGrid : nearest (2 ^ 53) = 2 ^ 53 := by decide +kernel
    rw [isLast, onGrid]
  · rcases exists_multiple quotientPositive small ((dividend : ℚ) / divisor).ceil with ⟨above, isAbove⟩
    rcases exists_multiple quotientPositive small (((dividend : ℚ) / divisor).ceil - 1) with ⟨below, isBelow⟩
    apply le_antisymm
    · rw [Rat.ceil_le_iff, isAbove]
      exact nearest_le quotientPositive (isAbove ▸ Rat.le_ceil)
    · have apart := ceil_sub_one_add_lt positive hasDivisor bound divisorBound small
      rw [← Int.sub_one_lt_iff, Rat.lt_ceil_iff, isBelow]
      apply lt_nearest quotientPositive
      rw [← isBelow]
      push_cast
      exact apart

/-- The quotient of a whole number up to `2 ^ 53` by a positive one is a double with the exact ceiling. -/
theorem exists_ratio_ceil (nonneg : 0 ≤ dividend) (hasDivisor : 0 < divisor)
    (bound : dividend ≤ 2 ^ 53) (divisorBound : divisor ≤ 2 ^ 53) :
    ∃ quotient, ratio dividend divisor = .ok quotient ∧
      quotient.ceil = .ok ((dividend : ℚ) / divisor).ceil := by
  have isNonneg : (0 : ℚ) ≤ dividend := by exact_mod_cast nonneg
  have atLeast : (1 : ℚ) ≤ divisor := by exact_mod_cast hasDivisor
  have isBound : (dividend : ℚ) / divisor ≤ 2 ^ 53 :=
    (div_le_self isNonneg atLeast).trans (by exact_mod_cast bound)
  have isFinite := round_eq_finite (div_nonneg isNonneg (by linarith)) isBound (by norm_num)
  refine ⟨.finite (nearest ((dividend : ℚ) / divisor)), ?_, congrArg Except.ok ?_⟩
  · rw [ratio, if_neg hasDivisor.ne', isFinite]
  · rcases nonneg.eq_or_lt with rfl | positive
    · simp [nearest]
    · exact ceil_nearest_div positive hasDivisor bound divisorBound

end Ceiling

end Binary64

end TermScene
