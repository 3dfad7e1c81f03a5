import TermScene.Proofs.Binary64.Bounds

/-!
# Sizes

A size is a double that is finite and not negative. Twice a size is one again, and its integer part is not
negative, so long as it is not near the greatest double.
-/

namespace TermScene

namespace Binary64

variable {value : ℚ} {exponent : ℕ} {number : Binary64}

/-- A number that is finite, not negative and at most a power of two. -/
def IsSize (exponent : ℕ) (number : Binary64) : Prop :=
  ∃ value, number = .finite value ∧ 0 ≤ value ∧ value ≤ 2 ^ exponent

theorem roundTiesToEven_nonneg (nonneg : 0 ≤ value) : 0 ≤ roundTiesToEven value := by
  have below : 0 ≤ value.floor := Rat.le_floor_iff.mpr (by exact_mod_cast nonneg)
  simp only [roundTiesToEven]
  split_ifs <;> omega

theorem nearest_nonneg (nonneg : 0 ≤ value) : 0 ≤ nearest value := by
  unfold nearest
  split
  · exact le_rfl
  · have step : 0 < gridStep (magnitude value) := lt_of_lt_of_le (by positivity) (gridStep_ge _)
    have quotient := roundTiesToEven_nonneg (div_nonneg nonneg step.le)
    exact mul_nonneg (by exact_mod_cast quotient) step.le

theorem round_eq_finite (nonneg : 0 ≤ value) (bound : value ≤ 2 ^ exponent) (small : exponent < 1023) :
    round value = .finite (nearest value) := by
  have sign : ¬value < 0 := not_lt.mpr nonneg
  rcases Within.round (by rwa [abs_of_nonneg nonneg]) small with ⟨held, isHeld, -⟩
  simp only [round, sign, and_false, if_false] at isHeld ⊢
  split at isHeld
  · simp [value?] at isHeld
  · rename_i isBelow
    rw [if_neg isBelow]

/-- Rounding a size gives one that is at most twice as large. -/
theorem IsSize.round (nonneg : 0 ≤ value) (bound : value ≤ 2 ^ exponent) (small : exponent < 1023) :
    IsSize (exponent + 1) (round value) := by
  have doubled := abs_nearest_le value
  rw [abs_of_nonneg nonneg, abs_of_nonneg (nearest_nonneg nonneg)] at doubled
  refine ⟨_, round_eq_finite nonneg bound small, nearest_nonneg nonneg, ?_⟩
  rw [pow_succ]
  linarith

theorem IsSize.within (isSize : IsSize exponent number) : Within exponent number := by
  rcases isSize with ⟨value, rfl, nonneg, bound⟩
  exact ⟨value, rfl, by rwa [abs_of_nonneg nonneg]⟩

theorem IsSize.onFinite (isSize : IsSize exponent number) (take : ℚ → ℤ) :
    ∃ whole, number.onFinite take = .ok whole := by
  rcases isSize with ⟨value, rfl, -, -⟩
  exact ⟨take value, rfl⟩

/-- Twice a size has an integer part, which is not negative. -/
theorem IsSize.floor_double (isSize : IsSize exponent number) (small : exponent + 1 < 1023) :
    ∃ whole, (ofInt 2 * number).floor = .ok whole ∧ 0 ≤ whole := by
  rcases isSize with ⟨value, rfl, nonneg, bound⟩
  have two : (ofInt 2).value? = some 2 := by decide +kernel
  rcases exists_mul_eq two (show (Binary64.finite value).value? = some value from rfl) with
    ⟨negative, isDouble⟩
  rw [isDouble, roundSigned]
  split
  · cases negative <;> exact ⟨0, rfl, le_rfl⟩
  · have doubled : 2 * value ≤ 2 ^ (exponent + 1) := by
      rw [pow_succ]
      linarith
    rcases IsSize.round (by linarith) doubled small with ⟨held, isHeld, isNonneg, -⟩
    rw [isHeld]
    exact ⟨held.floor, rfl, Rat.le_floor_iff.mpr (by exact_mod_cast isNonneg)⟩

/-- The integer part of a size is not negative, and no greater than the size. -/
theorem IsSize.truncate {whole : ℤ} (isSize : IsSize exponent number) (cut : number.truncate = .ok whole) :
    0 ≤ whole ∧ whole ≤ 2 ^ exponent := by
  have bound := (le_abs_self whole).trans (isSize.within.abs_truncate_le cut)
  rcases isSize with ⟨value, rfl, nonneg, -⟩
  rw [truncate_finite, if_neg (not_lt.mpr nonneg), Except.ok.injEq] at cut
  subst cut
  exact ⟨Rat.le_floor_iff.mpr (by exact_mod_cast nonneg), bound⟩

end Binary64

end TermScene
