import TermScene.Binary64.Arithmetic
import TermScene.Proofs.Binary64.Rounding

/-!
# Sizes of doubles

Rounding makes a number at most twice as large. So a computation in doubles that starts from numbers of
a known size keeps clear of the infinities: the size is counted in powers of two, and every operation
adds to it.
-/

namespace TermScene

namespace Binary64

variable {value : ℚ} {exponent least : ℕ} {number left right : Binary64}

theorem roundTiesToEven_error (value : ℚ) : |(roundTiesToEven value : ℚ) - value| ≤ 1 / 2 := by
  have low : ((value.floor : ℤ) : ℚ) ≤ value := Int.floor_le value
  have high : value < (value.floor : ℤ) + 1 := Int.lt_floor_add_one value
  simp only [roundTiesToEven]
  split_ifs <;> push_cast <;> rw [abs_le] <;> constructor <;> linarith

/-- The nearest integer is at most twice as large. At a distance of one half the number is half as large
itself, unless the integer is zero. -/
theorem abs_roundTiesToEven_le (value : ℚ) : |(roundTiesToEven value : ℚ)| ≤ 2 * |value| := by
  have error := roundTiesToEven_error value
  have triangle : |(roundTiesToEven value : ℚ)| ≤ |(roundTiesToEven value : ℚ) - value| + |value| := by
    simpa using abs_add_le ((roundTiesToEven value : ℚ) - value) value
  by_cases isZero : roundTiesToEven value = 0
  · simp [isZero]
  · have atLeast : (1 : ℚ) ≤ |(roundTiesToEven value : ℚ)| := by
      exact_mod_cast Int.one_le_abs isZero
    linarith

theorem abs_nearest_le (value : ℚ) : |nearest value| ≤ 2 * |value| := by
  unfold nearest
  split
  · simp
  · have step := gridStep_ge (magnitude value)
    have stepPositive : 0 < gridStep (magnitude value) := lt_of_lt_of_le (by positivity) step
    have rounded := abs_roundTiesToEven_le (value / gridStep (magnitude value))
    simp only [abs_mul, abs_of_pos stepPositive]
    calc |(roundTiesToEven (value / gridStep (magnitude value)) : ℚ)| * gridStep (magnitude value)
        ≤ 2 * |value / gridStep (magnitude value)| * gridStep (magnitude value) := by
          exact mul_le_mul_of_nonneg_right rounded stepPositive.le
      _ = 2 * |value| := by
          rw [abs_div, abs_of_pos stepPositive]
          field_simp

theorem magnitude_eq_abs (value : ℚ) : magnitude value = |value| := by
  unfold magnitude
  split
  · rename_i negative
    exact (abs_of_neg negative).symm
  · rename_i nonneg
    exact (abs_of_nonneg (not_lt.mp nonneg)).symm

theorem exists_value?_of_truncate {whole : ℤ} (cut : number.truncate = .ok whole) :
    ∃ value, number.value? = some value := by
  cases number <;> first | exact ⟨_, rfl⟩ | simp [truncate, onFinite] at cut

section Exact

variable {leftValue rightValue : ℚ} (isLeft : left.value? = some leftValue)
  (isRight : right.value? = some rightValue)
include isLeft isRight

theorem exists_add_eq : ∃ negative, left + right = roundSigned negative (leftValue + rightValue) := by
  change ∃ negative, left.add right = _
  cases left <;> cases right <;> simp only [value?, Option.some.injEq, reduceCtorEq] at isLeft isRight <;>
    subst isLeft isRight <;> exact ⟨_, rfl⟩

theorem exists_mul_eq : ∃ negative, left * right = roundSigned negative (leftValue * rightValue) := by
  change ∃ negative, left.mul right = _
  cases left <;> cases right <;> simp only [value?, Option.some.injEq, reduceCtorEq] at isLeft isRight <;>
    subst isLeft isRight <;> exact ⟨_, rfl⟩

end Exact

/-- A number that is finite and at most as large as a power of two. -/
def Within (exponent : ℕ) (number : Binary64) : Prop :=
  ∃ value, number.value? = some value ∧ |value| ≤ 2 ^ exponent

namespace Within

theorem mono (within : Within least number) (below : least ≤ exponent) : Within exponent number := by
  rcases within with ⟨value, isValue, bound⟩
  exact ⟨value, isValue, bound.trans (pow_le_pow_right₀ (by norm_num) below)⟩

theorem finite_or_negativeZero (within : Within exponent number) :
    (∃ value, number = .finite value ∧ |value| ≤ 2 ^ exponent) ∨ number = .negativeZero := by
  rcases within with ⟨value, isValue, bound⟩
  cases number with
  | finite held => exact .inl ⟨held, rfl, Option.some.inj isValue ▸ bound⟩
  | negativeZero => exact .inr rfl
  | infinity => simp [value?] at isValue
  | nan => simp [value?] at isValue

theorem negativeZero : Within exponent .negativeZero := ⟨0, rfl, by positivity⟩

theorem toNearestInt (within : Within exponent number) : ∃ whole, number.toNearestInt = .ok whole := by
  rcases within.finite_or_negativeZero with ⟨value, rfl, -⟩ | rfl <;> exact ⟨_, rfl⟩

theorem round (bound : |value| ≤ 2 ^ exponent) (small : exponent < 1023) :
    Within (exponent + 1) (round value) := by
  have doubled : |nearest value| ≤ 2 ^ (exponent + 1) := by
    have := abs_nearest_le value
    rw [pow_succ]
    linarith
  have isBelow : |nearest value| < limit := by
    rw [limit, twoPow_eq_zpow]
    calc |nearest value| ≤ 2 ^ (exponent + 1) := doubled
      _ < (2 : ℚ) ^ 1024 := pow_lt_pow_right₀ (by norm_num) (by omega)
      _ = (2 : ℚ) ^ (1024 : ℤ) := (zpow_natCast 2 1024).symm
  simp only [Binary64.round, magnitude_eq_abs, not_le.mpr isBelow, if_false]
  split
  · exact ⟨0, rfl, by positivity⟩
  · exact ⟨_, rfl, doubled⟩

/-- Whatever number is rounded, a finite result is below the limit. -/
theorem of_round {held : ℚ} (isFinite : (Binary64.round value).value? = some held) :
    Within 1024 (Binary64.round value) := by
  refine ⟨held, isFinite, ?_⟩
  have isLimit : limit = 2 ^ 1024 := by
    rw [limit, twoPow_eq_zpow]
    exact zpow_natCast 2 1024
  simp only [Binary64.round, magnitude_eq_abs, isLimit] at isFinite
  split at isFinite
  · simp [value?] at isFinite
  · rename_i isBelow
    split at isFinite <;> simp only [value?, Option.some.injEq] at isFinite <;> subst isFinite
    · positivity
    · exact (not_le.mp isBelow).le

theorem roundSigned (negative : Bool) (bound : |value| ≤ 2 ^ exponent) (small : exponent < 1023) :
    Within (exponent + 1) (roundSigned negative value) := by
  unfold Binary64.roundSigned
  split
  · cases negative <;> exact ⟨0, rfl, by positivity⟩
  · exact round bound small

theorem ofInt {whole : ℤ} (bound : |whole| ≤ 2 ^ exponent) (small : exponent < 1023) :
    Within (exponent + 1) (ofInt whole) :=
  round (by exact_mod_cast bound) small

theorem neg (within : Within exponent number) : Within exponent number.neg := by
  rcases within.finite_or_negativeZero with ⟨value, rfl, bound⟩ | rfl
  · simp only [Binary64.neg]
    split
    · exact negativeZero
    · exact ⟨-value, rfl, by rwa [abs_neg]⟩
  · exact ⟨0, rfl, by positivity⟩

theorem add (leftWithin : Within exponent left) (rightWithin : Within exponent right)
    (small : exponent + 1 < 1023) : Within (exponent + 2) (left + right) := by
  rcases leftWithin with ⟨leftValue, isLeft, leftBound⟩
  rcases rightWithin with ⟨rightValue, isRight, rightBound⟩
  have bound : |leftValue + rightValue| ≤ 2 ^ (exponent + 1) := by
    have := abs_add_le leftValue rightValue
    rw [pow_succ]
    linarith
  rcases exists_add_eq isLeft isRight with ⟨negative, isSum⟩
  exact isSum ▸ roundSigned negative bound small

theorem sub (leftWithin : Within exponent left) (rightWithin : Within exponent right)
    (small : exponent + 1 < 1023) : Within (exponent + 2) (left - right) :=
  add leftWithin rightWithin.neg small

theorem mul {rightExponent : ℕ} (leftWithin : Within exponent left)
    (rightWithin : Within rightExponent right) (small : exponent + rightExponent < 1023) :
    Within (exponent + rightExponent + 1) (left * right) := by
  rcases leftWithin with ⟨leftValue, isLeft, leftBound⟩
  rcases rightWithin with ⟨rightValue, isRight, rightBound⟩
  have bound : |leftValue * rightValue| ≤ 2 ^ (exponent + rightExponent) := by
    rw [abs_mul, pow_add]
    exact mul_le_mul leftBound rightBound (abs_nonneg _) (by positivity)
  rcases exists_mul_eq isLeft isRight with ⟨negative, isProduct⟩
  exact isProduct ▸ roundSigned negative bound small

theorem divNat {divisor : ℕ} (within : Within exponent number) (positive : 0 < divisor)
    (small : exponent < 1023) : Within (exponent + 1) (number.divNat divisor) := by
  rcases within.finite_or_negativeZero with ⟨value, rfl, bound⟩ | rfl
  · have atLeast : (1 : ℚ) ≤ divisor := by exact_mod_cast positive
    refine roundSigned _ ?_ small
    rw [abs_div, abs_of_pos (by linarith : (0 : ℚ) < divisor)]
    exact (div_le_self (abs_nonneg _) atLeast).trans bound
  · exact negativeZero

/-- The integer part of a number is no larger than the number. -/
theorem abs_truncate_le (within : Within exponent number) {whole : ℤ}
    (cut : number.truncate = .ok whole) : |whole| ≤ 2 ^ exponent := by
  rcases within.finite_or_negativeZero with ⟨value, rfl, bound⟩ | rfl
  · have closer : |(whole : ℚ)| ≤ |value| := by
      rw [truncate_finite, Except.ok.injEq] at cut
      split at cut <;> subst cut
      · rename_i negative
        have above : value ≤ value.ceil := Rat.le_ceil
        have atMost : value.ceil ≤ 0 := Rat.ceil_le_iff.mpr (by exact_mod_cast negative.le)
        have isNonpos : (value.ceil : ℚ) ≤ 0 := by exact_mod_cast atMost
        rw [abs_of_nonpos isNonpos, abs_of_neg negative]
        exact neg_le_neg above
      · rename_i nonneg
        have below : value.floor ≤ value := Rat.floor_le value
        have atLeast : 0 ≤ value.floor := Rat.le_floor_iff.mpr (by exact_mod_cast not_lt.mp nonneg)
        have isNonneg : (0 : ℚ) ≤ value.floor := by exact_mod_cast atLeast
        rw [abs_of_nonneg isNonneg, abs_of_nonneg (not_lt.mp nonneg)]
        exact below
    exact_mod_cast closer.trans bound
  · have isZero : 0 = whole := Except.ok.inj cut
    simp [← isZero]

/-- A remainder is bounded by the divisor, whatever the number. -/
theorem modNat {divisor : ℕ} (within : Within least number) (positive : 0 < divisor)
    (bound : divisor ≤ 2 ^ exponent) (small : exponent < 1023) :
    Within (exponent + 1) (number.modNat divisor) := by
  have isPositive : (0 : ℚ) < divisor := by exact_mod_cast positive
  have isBound : (divisor : ℚ) ≤ 2 ^ exponent := by exact_mod_cast bound
  rcases within.finite_or_negativeZero with ⟨value, rfl, -⟩ | rfl
  · have rounded {rest : ℚ} (size : |rest| ≤ divisor) :
        Within (exponent + 1)
          (if rest < 0 then Binary64.round (rest + divisor) else Binary64.round rest) := by
      rcases abs_le.mp size with ⟨low, high⟩
      split
      · exact round (abs_le.mpr ⟨by linarith, by linarith⟩) small
      · exact round (size.trans isBound) small
    have cut {whole : ℤ} (near : |value / divisor - whole| ≤ 1) :
        |value - divisor * whole| ≤ divisor := by
      calc |value - divisor * whole| = |divisor * (value / divisor - whole)| := by
            congr 1
            field_simp
        _ = divisor * |value / divisor - whole| := by rw [abs_mul, abs_of_pos isPositive]
        _ ≤ divisor := mul_le_of_le_one_right isPositive.le near
    refine rounded (cut ?_)
    -- The quotient is cut off towards zero, so it is less than one away.
    split
    · have above := Rat.le_ceil (x := value / divisor)
      have near := Rat.ceil_lt (x := value / divisor)
      exact abs_le.mpr ⟨by linarith, by linarith⟩
    · have below := Rat.floor_le (a := value / divisor)
      have near := Rat.lt_floor (x := value / divisor)
      exact abs_le.mpr ⟨by linarith, by linarith⟩
  · exact ⟨0, rfl, by positivity⟩

end Within

end Binary64

end TermScene
