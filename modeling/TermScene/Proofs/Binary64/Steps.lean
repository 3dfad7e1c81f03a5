import TermScene.Proofs.Binary64.Quotient

/-!
# Steps between doubles

From a number to twice the number, the step of the grid either stays or is doubled, so that twice a double
is a double. The double below a positive one is at most a step away from it, and unless the number is
tiny, a step is at most its `2 ^ 52`th part.
-/

namespace TermScene

section Doubling

variable {value : ℚ}

theorem floorLog2_two_mul (positive : 0 < value) : floorLog2 (2 * value) = floorLog2 value + 1 := by
  have bounds := floorLog2_bounds positive
  have doubled := floorLog2_bounds (show 0 < 2 * value by linarith)
  have two : (2 : ℚ) ≠ 0 := by norm_num
  have atMost : floorLog2 (2 * value) < floorLog2 value + 1 + 1 := by
    refine floorLog2_lt (by linarith) ?_
    rw [zpow_add_one₀ two]
    linarith
  have atLeast : floorLog2 value + 1 < floorLog2 (2 * value) + 1 := by
    have above : (2 : ℚ) ^ (floorLog2 value + 1) ≤ 2 * value := by
      rw [zpow_add_one₀ two]
      linarith
    exact (zpow_lt_zpow_iff_right₀ (by norm_num)).mp (above.trans_lt doubled.2)
  omega

namespace Binary64

/-- Twice a step of the grid is a step or two of the grid around twice the number. -/
theorem exists_two_mul_gridStep (positive : 0 < value) :
    ∃ steps : ℤ, 2 * gridStep value = steps * gridStep (2 * value) := by
  simp only [gridStep, twoPow_eq_zpow, floorLog2_two_mul positive]
  rcases le_or_gt (-1074) (floorLog2 value - 52) with normal | tiny
  · refine ⟨1, ?_⟩
    rw [max_eq_left normal, max_eq_left (by omega),
      show floorLog2 value + 1 - 52 = floorLog2 value - 52 + 1 by ring, zpow_add_one₀ (by norm_num)]
    push_cast
    ring
  · refine ⟨2, ?_⟩
    rw [max_eq_right tiny.le, max_eq_right (by omega)]
    norm_num

theorem roundTiesToEven_intCast (whole : ℤ) : roundTiesToEven whole = whole := by
  simp [roundTiesToEven, Rat.floor_intCast]

/-- The doubles are the points of the grid. -/
theorem nearest_eq_self_iff (positive : 0 < value) :
    nearest value = value ↔ ∃ steps : ℤ, value = steps * gridStep value := by
  rw [nearest_eq positive]
  constructor
  · intro held
    exact ⟨_, held.symm⟩
  · rintro ⟨steps, isPoint⟩
    have quotient : value / gridStep value = steps := (div_eq_iff (gridStep_pos value).ne').mpr isPoint
    rw [quotient, roundTiesToEven_intCast, ← isPoint]

theorem nearest_two_mul (nonneg : 0 ≤ value) (held : nearest value = value) :
    nearest (2 * value) = 2 * value := by
  rcases nonneg.eq_or_lt with rfl | positive
  · simp [nearest]
  · rcases (nearest_eq_self_iff positive).mp held with ⟨multiple, isPoint⟩
    rcases exists_two_mul_gridStep positive with ⟨steps, doubled⟩
    refine (nearest_eq_self_iff (by linarith)).mpr ⟨multiple * steps, ?_⟩
    calc 2 * value = 2 * (multiple * gridStep value) := congrArg (2 * ·) isPoint
      _ = multiple * (2 * gridStep value) := by ring
      _ = multiple * (steps * gridStep (2 * value)) := by rw [doubled]
      _ = (multiple * steps : ℤ) * gridStep (2 * value) := by
        push_cast
        ring

theorem gridStep_le (normal : (2 : ℚ) ^ (-1022 : ℤ) ≤ value) : gridStep value ≤ value / 2 ^ 52 := by
  have half := half_gridStep normal
  have power := (floorLog2_bounds (lt_of_lt_of_le (by positivity) normal)).1
  have bound : (2 : ℚ) ^ floorLog2 value / 2 ^ 53 ≤ value / 2 ^ 53 := by gcongr
  linarith [show value / (2 : ℚ) ^ 52 = 2 * (value / 2 ^ 53) by ring]

theorem below_bounds (value : ℚ) : value - gridStep value ≤ below value ∧ below value ≤ value := by
  have step := gridStep_pos value
  simp only [below]
  split <;> constructor <;> linarith

end Binary64

end Doubling

end TermScene
