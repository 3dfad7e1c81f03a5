import Mathlib.Algebra.Order.Floor.Semiring
import Mathlib.Order.Bounds.Basic
import TermScene.Proofs.Binary64.Quotient
import TermScene.Proofs.Scene.Pauses

/-!
# Animations cover their duration

An animation takes the least number of steps that are together as long as its duration, although that number
comes from a quotient in doubles. Its frames are shown in turn, and all of them come up if the duration has room
for each of them with the least delay.
-/

namespace TermScene

namespace Timing

variable {duration frameCount minDelay : ℤ} {timing : Timing}

/-- A frame is shown for its share of the duration, or for the least delay if that is longer, and there are just
as many steps as it takes to cover the duration. -/
structure IsExact (duration frameCount minDelay : ℤ) (timing : Timing) : Prop where
  delay : timing.delay = max minDelay ⌊(duration : ℚ) / frameCount⌋
  steps : IsLeast {count : ℤ | 0 ≤ count ∧ duration ≤ count * timing.delay} timing.steps
  covers : duration ≤ timing.steps * timing.delay
  stops : timing.steps * timing.delay < duration + timing.delay
  showsAll : frameCount * minDelay ≤ duration → frameCount ≤ timing.steps

/-- The exact quotient rounded up is the least number of delays that cover a duration. -/
theorem isLeast_ceil {delay : ℤ} (nonneg : 0 ≤ duration) (positive : 0 < delay) :
    IsLeast {count : ℤ | 0 ≤ count ∧ duration ≤ count * delay} ((duration : ℚ) / delay).ceil := by
  have isPositive : (0 : ℚ) < delay := by exact_mod_cast positive
  have isNonneg : (0 : ℚ) ≤ (duration : ℚ) / delay := div_nonneg (by exact_mod_cast nonneg) isPositive.le
  have covers (count : ℤ) : duration ≤ count * delay ↔ ((duration : ℚ) / delay).ceil ≤ count := by
    rw [Rat.ceil_le_iff, div_le_iff₀ isPositive]
    norm_cast
  constructor
  · refine ⟨?_, (covers _).mpr le_rfl⟩
    rw [← Int.sub_one_lt_iff, Rat.lt_ceil_iff]
    push_cast
    linarith
  · rintro count ⟨-, isCovered⟩
    exact (covers count).mp isCovered

theorem ceil_mul_lt {delay : ℤ} (positive : 0 < delay) :
    ((duration : ℚ) / delay).ceil * delay < duration + delay := by
  have isPositive : (0 : ℚ) < delay := by exact_mod_cast positive
  have bound : (((duration : ℚ) / delay).ceil : ℚ) * delay < ((duration : ℚ) / delay + 1) * delay := by
    gcongr
    exact Rat.ceil_lt
  rw [add_mul, one_mul, div_mul_cancel₀ _ isPositive.ne'] at bound
  exact_mod_cast bound

theorem fdiv_eq_floor (hasFrame : 0 < frameCount) :
    Int.fdiv duration frameCount = ⌊(duration : ℚ) / frameCount⌋ := by
  lift frameCount to ℕ using hasFrame.le
  rw [Int.fdiv_eq_ediv_of_nonneg _ (Int.natCast_nonneg _)]
  exact (Rat.floor_intCast_div_natCast duration frameCount).symm

/-- If every frame has room for the least delay, all frames together take no longer than the duration. -/
theorem mul_max_le (hasFrame : 0 < frameCount) (room : frameCount * minDelay ≤ duration) :
    frameCount * max minDelay (Int.fdiv duration frameCount) ≤ duration := by
  rcases max_choice minDelay (Int.fdiv duration frameCount) with isLeast | isShare
  · rwa [isLeast]
  · rw [isShare, Int.fdiv_eq_ediv_of_nonneg _ hasFrame.le]
    exact Int.mul_ediv_self_le hasFrame.ne'

theorem exists_isExact (nonneg : 0 ≤ duration) (bound : duration ≤ 2 ^ 53) (hasFrame : 1 ≤ frameCount)
    (hasDelay : 1 ≤ minDelay) (delayBound : minDelay ≤ 2 ^ 53) :
    ∃ timing, ofAnimation duration frameCount minDelay = .ok timing ∧
      timing.IsExact duration frameCount minDelay := by
  have room : frameCount * minDelay ≤ duration →
      frameCount * max minDelay (Int.fdiv duration frameCount) ≤ duration := mul_max_le hasFrame
  have isShare : Int.fdiv duration frameCount = ⌊(duration : ℚ) / frameCount⌋ := fdiv_eq_floor hasFrame
  have shareBound : Int.fdiv duration frameCount ≤ 2 ^ 53 := by
    rw [Int.fdiv_eq_ediv_of_nonneg _ (by omega)]
    exact (Int.ediv_le_self _ nonneg).trans bound
  have atMost : max minDelay (Int.fdiv duration frameCount) ≤ 2 ^ 53 := max_le delayBound shareBound
  have positive : 0 < max minDelay (Int.fdiv duration frameCount) := lt_max_of_lt_left hasDelay
  obtain ⟨delay, isDelay⟩ : ∃ delay, max minDelay (Int.fdiv duration frameCount) = delay := ⟨_, rfl⟩
  rw [isDelay] at room atMost positive
  have least := isLeast_ceil nonneg positive
  rcases Binary64.exists_ratio_ceil nonneg positive bound atMost with ⟨quotient, isRatio, isCeil⟩
  refine ⟨⟨delay, ((duration : ℚ) / delay).ceil⟩, ?_, ?_⟩
  · simp only [ofAnimation, if_neg (show frameCount ≠ 0 by omega), isDelay, if_neg positive.not_ge, isRatio,
      isCeil, max_eq_right least.1.1]
  · constructor
    case delay => rw [← isShare, isDelay]
    case steps => exact least
    case covers => exact least.1.2
    case stops => exact ceil_mul_lt positive
    case showsAll =>
      intro hasRoom
      have fits : frameCount * delay ≤ ((duration : ℚ) / delay).ceil * delay :=
        (room hasRoom).trans least.1.2
      exact le_of_mul_le_mul_right fits positive

end Timing

namespace Evaluating

variable {settings : Settings} {duration : ℤ} {frames : List String} {stage : Stage} {timing : Timing}

/-- Steps that show some frames in turn, each of them for a delay. -/
structure ShowsInTurn (frames : List String) (background : String) (timing : Timing) (shown : List Step) :
    Prop where
  count : (shown.length : ℤ) = timing.steps
  each : ∀ index (inside : index < shown.length), ∃ frame, frames[index % frames.length]? = some frame ∧
    shown[index] = .picture frame background timing.delay ""
  all : (frames.length : ℤ) ≤ timing.steps →
    ∀ frame ∈ frames, .picture frame background timing.delay "" ∈ shown
  total : (shown.map Step.duration).sum = timing.steps * timing.delay

theorem showsInTurn_animationSteps (background : String) (hasFrame : frames ≠ [])
    (nonneg : 0 ≤ timing.steps) :
    ShowsInTurn frames background timing (animationSteps background frames timing) := by
  have isCount : (timing.steps.toNat : ℤ) = timing.steps := Int.toNat_of_nonneg nonneg
  have positive : 0 < frames.length := List.length_pos_iff.mpr hasFrame
  have isLength : (animationSteps background frames timing).length = timing.steps.toNat := by
    simp [animationSteps]
  have each : ∀ index (inside : index < (animationSteps background frames timing).length),
      ∃ frame, frames[index % frames.length]? = some frame ∧
        (animationSteps background frames timing)[index] = .picture frame background timing.delay "" := by
    intro index inside
    have isFrame := List.getElem?_eq_getElem (Nat.mod_lt index positive)
    exact ⟨_, isFrame, by simp [animationSteps, isFrame]⟩
  constructor
  case count => rw [isLength, isCount]
  case each => exact each
  case all =>
    intro room frame isFrame
    rcases List.getElem_of_mem isFrame with ⟨index, inside, isIndex⟩
    have isStep : index < (animationSteps background frames timing).length := by omega
    rcases each index isStep with ⟨shownFrame, isShown, isPicture⟩
    rw [Nat.mod_eq_of_lt inside, List.getElem?_eq_getElem inside, isIndex, Option.some.injEq] at isShown
    rw [isShown, ← isPicture]
    exact List.getElem_mem isStep
  case total =>
    rw [animationSteps, List.map_map]
    simp [Function.comp_def, Step.duration, isCount]

theorem animate_eq_ok (hasFrame : frames ≠ [])
    (timed : Timing.ofAnimation duration frames.length settings.minFrameDelay = .ok timing) :
    animate settings frames duration stage =
      .ok () { stage with timeline := stage.timeline ++ animationSteps stage.background frames timing } := by
  have notEmpty : frames.isEmpty = false := by simpa using hasFrame
  simp only [animate, notEmpty, timed]
  rfl

end Evaluating

namespace Timing

/-- The timing of an animation is exact up to durations and least delays of `2 ^ 53`, and an animation with
so many frames shows them by it. -/
theorem ofAnimation_isExact {duration frameCount minDelay : ℤ} (nonneg : 0 ≤ duration)
    (bound : duration ≤ 2 ^ 53) (hasFrame : 1 ≤ frameCount) (hasDelay : 1 ≤ minDelay)
    (delayBound : minDelay ≤ 2 ^ 53) :
    ∃ timing, ofAnimation duration frameCount minDelay = .ok timing ∧
      timing.IsExact duration frameCount minDelay ∧
      ∀ (settings : Settings) (frames : List String) (stage : Stage),
        settings.minFrameDelay = minDelay → frames.length = frameCount →
          ∃ shown : List Step, Evaluating.animate settings frames duration stage =
              .ok () { stage with timeline := stage.timeline ++ shown } ∧
            Evaluating.ShowsInTurn frames stage.background timing shown := by
  rcases exists_isExact nonneg bound hasFrame hasDelay delayBound with ⟨timing, timed, isExact⟩
  refine ⟨timing, timed, isExact, fun settings frames stage isLeast isCount => ?_⟩
  have nonempty : frames ≠ [] := by
    rintro rfl
    simp at isCount
    omega
  rw [← isLeast, ← isCount] at timed
  exact ⟨_, Evaluating.animate_eq_ok nonempty timed,
    Evaluating.showsInTurn_animationSteps stage.background nonempty isExact.steps.1.1⟩

/-- The longest duration for three frames: three delays fall short of it by two milliseconds. -/
theorem ofAnimation_isExact_longest :
    ∃ timing, ofAnimation (2 ^ 53) 3 7 = .ok timing ∧ timing = ⟨3002399751580330, 4⟩ ∧
      timing.IsExact (2 ^ 53) 3 7 ∧
      ∃ shown : List Step, Evaluating.animate { minFrameDelay := 7 } ["a", "b", "c"] (2 ^ 53) {} =
          .ok () { timeline := shown.toArray } ∧
        Evaluating.ShowsInTurn ["a", "b", "c"] "black" timing shown := by
  rcases ofAnimation_isExact (show (0 : ℤ) ≤ 2 ^ 53 by norm_num) le_rfl (show (1 : ℤ) ≤ 3 by norm_num)
    (show (1 : ℤ) ≤ 7 by norm_num) (by norm_num) with ⟨timing, timed, isExact, shows⟩
  have isTiming : ofAnimation (2 ^ 53) 3 7 = .ok ⟨3002399751580330, 4⟩ := by decide +kernel
  have same : timing = ⟨3002399751580330, 4⟩ := Except.ok.inj (timed.symm.trans isTiming)
  rcases shows { minFrameDelay := 7 } ["a", "b", "c"] {} rfl rfl with ⟨shown, animated, inTurn⟩
  exact ⟨timing, timed, same, isExact, shown, by simpa using animated, inTurn⟩

end Timing

end TermScene
