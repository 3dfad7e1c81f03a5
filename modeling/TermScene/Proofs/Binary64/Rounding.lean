import Mathlib.Algebra.Order.Field.Power
import Mathlib.Algebra.Order.Floor.Ring
import Mathlib.Data.Rat.Floor
import Mathlib.Tactic.Linarith
import Mathlib.Tactic.NormNum
import TermScene.Binary64.Decimal

/-!
# Rounding to doubles

The powers in the definition of rounding are the usual ones, and a positive number below half the
smallest step of the grid rounds to zero.
-/

namespace TermScene

theorem twoPow_eq_zpow (exponent : Int) : twoPow exponent = (2 : ℚ) ^ exponent := by
  unfold twoPow
  split
  · rename_i nonneg
    lift exponent to ℕ using nonneg
    simp
  · rename_i negative
    obtain ⟨size, rfl⟩ : ∃ size : ℕ, exponent = -size := ⟨(-exponent).toNat, by omega⟩
    simp

theorem tenPow_neg (size : ℕ) : tenPow (-size) = 1 / (10 : ℚ) ^ size := by
  unfold tenPow
  split
  · have : size = 0 := by omega
    subst this
    simp
  · simp

namespace Binary64

theorem gridStep_ge (size : ℚ) : (2 : ℚ) ^ (-1074 : ℤ) ≤ gridStep size := by
  rw [gridStep, twoPow_eq_zpow]
  exact zpow_le_zpow_right₀ (by norm_num) (le_max_right _ _)

theorem roundTiesToEven_eq_zero {value : ℚ} (nonneg : 0 ≤ value) (small : value < 1 / 2) :
    roundTiesToEven value = 0 := by
  have below : value.floor = 0 := by
    change ⌊value⌋ = 0
    rw [Int.floor_eq_zero_iff]
    exact ⟨nonneg, by linarith⟩
  simp only [roundTiesToEven, below, Int.cast_zero, sub_zero, small, ↓reduceIte]

/-- A number below half the smallest step of the grid rounds to zero. -/
theorem round_eq_zero {value : ℚ} (positive : 0 < value) (small : value < (2 : ℚ) ^ (-1075 : ℤ)) :
    round value = .finite 0 := by
  have isNearest : nearest value = 0 := by
    have step := gridStep_ge (magnitude value)
    have stepPositive : 0 < gridStep (magnitude value) := lt_of_lt_of_le (by positivity) step
    have halved : value / gridStep (magnitude value) < 1 / 2 := by
      rw [div_lt_iff₀ stepPositive]
      calc value < (2 : ℚ) ^ (-1075 : ℤ) := small
        _ = (2 : ℚ) ^ (-1 : ℤ) * (2 : ℚ) ^ (-1074 : ℤ) := by
            rw [← zpow_add₀ (by norm_num)]
            rfl
        _ = 1 / 2 * (2 : ℚ) ^ (-1074 : ℤ) := by rw [zpow_neg_one, one_div]
        _ ≤ 1 / 2 * gridStep (magnitude value) := by linarith
    have quotient := roundTiesToEven_eq_zero (by positivity) halved
    simp [nearest, positive.ne', quotient]
  have notNegative : ¬value < 0 := not_lt.mpr positive.le
  have below : ¬limit ≤ magnitude 0 := by
    simp [limit, magnitude, twoPow_eq_zpow]
  simp [round, isNearest, below, notNegative]

theorem round_ne_nan (value : ℚ) : round value ≠ .nan := by
  simp only [round]
  split
  · simp
  · split <;> simp

end Binary64

end TermScene
