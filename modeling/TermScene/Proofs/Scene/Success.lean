import Mathlib.Data.List.Forall2
import TermScene.Scene.Evaluation

/-!
# Evaluations that succeed

A part of an evaluation that is made of others succeeds exactly if they do one after another, each where
the one before it ended. One equivalence for each way of making a part takes an evaluation apart, and no
other proof has to look into the state.
-/

namespace TermScene

section Except

variable {ε ε' α β : Type}

theorem bind_eq_ok_iff {result : Except ε α} {next : α → Except ε β} {value : β} :
    result >>= next = .ok value ↔ ∃ inner, result = .ok inner ∧ next inner = .ok value := by
  cases result <;> simp [bind, Except.bind]

theorem map_eq_ok_iff {result : Except ε α} {change : α → β} {value : β} :
    result.map change = .ok value ↔ ∃ inner, result = .ok inner ∧ change inner = value := by
  cases result <;> simp [Except.map]

theorem mapError_eq_ok_iff {result : Except ε α} {change : ε → ε'} {value : α} :
    result.mapError change = .ok value ↔ result = .ok value := by
  cases result <;> simp [Except.mapError]

/-- Making something of every item succeeds exactly if it does for each of them. -/
theorem mapM_eq_ok_iff {make : α → Except ε β} {items : List α} {results : List β} :
    items.mapM make = .ok results ↔
      List.Forall₂ (fun item result => make item = .ok result) items results := by
  induction items generalizing results with
  | nil => cases results <;> simp [pure, Except.pure]
  | cons first later ih =>
      rw [List.mapM_cons]
      simp only [bind_eq_ok_iff]
      constructor
      · rintro ⟨value, made, values, others, same⟩
        cases same
        exact .cons made (ih.mp others)
      · intro each
        cases each with
        | cons made others => exact ⟨_, made, _, ih.mpr others, rfl⟩

end Except

namespace Evaluating

variable {α β : Type}

theorem bind_eq_ok_iff {first : Evaluating α} {next : α → Evaluating β} {stage after : Stage}
    {value : β} :
    (first >>= next) stage = .ok value after ↔
      ∃ inner between, first stage = .ok inner between ∧ next inner between = .ok value after := by
  cases made : first stage <;> simp [bind, EStateM.bind, made]

theorem pure_eq_ok_iff {given value : α} {stage after : Stage} :
    (pure given : Evaluating α) stage = .ok value after ↔ given = value ∧ stage = after := by
  simp [pure, EStateM.pure]

theorem modify_eq_ok_iff {change : Stage → Stage} {stage after : Stage} {value : PUnit} :
    (modify change : Evaluating PUnit) stage = .ok value after ↔ change stage = after := by
  have ran : (modify change : Evaluating PUnit) stage = .ok ⟨⟩ (change stage) := rfl
  simp [ran]

theorem get_eq_ok_iff {stage value after : Stage} :
    (get : Evaluating Stage) stage = .ok value after ↔ stage = value ∧ stage = after := by
  have ran : (get : Evaluating Stage) stage = .ok stage stage := rfl
  simp [ran]

theorem throw_ne_ok {failure : DrawFailure} {stage after : Stage} {value : α} :
    (throw failure : Evaluating α) stage ≠ .ok value after := by
  have ran : (throw failure : Evaluating α) stage = .error failure stage := rfl
  simp [ran]

theorem drawn_eq_ok_iff {result : Except DrawFailure (String × List Notice)} {stage after : Stage}
    {text : String} :
    drawn result stage = .ok text after ↔
      ∃ notices, result = .ok (text, notices) ∧
        { stage with notices := stage.notices ++ notices } = after := by
  cases result with
  | error failure => simp [drawn, throw_ne_ok]
  | ok made =>
      rcases made with ⟨drawing, notices⟩
      simp only [drawn, bind_eq_ok_iff, modify_eq_ok_iff, pure_eq_ok_iff, Except.ok.injEq,
        Prod.mk.injEq]
      constructor
      · rintro ⟨_, between, recorded, same, rfl⟩
        exact ⟨notices, ⟨same, rfl⟩, recorded⟩
      · rintro ⟨_, ⟨same, rfl⟩, recorded⟩
        exact ⟨⟨⟩, after, recorded, same, rfl⟩

theorem record_eq_ok_iff {steps : List Step} {stage after : Stage} {value : Unit} :
    record steps stage = .ok value after ↔
      { stage with timeline := stage.timeline ++ steps } = after :=
  modify_eq_ok_iff

end Evaluating

end TermScene
