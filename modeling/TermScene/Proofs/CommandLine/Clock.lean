import TermScene.CommandLine.Run
import TermScene.Proofs.Scene.Pauses

/-!
# Playing by the clock

The clock counts seconds in a double, so it can count every pause below the limit of doubles, and those of
an evaluated scene are. A playback whose pauses can be counted goes as planned. When it is not interrupted
and the frames are not shown for ever, it comes to its end.
-/

namespace TermScene

/-- A thousandth of a time below the limit of doubles is rounded to a finite double. -/
theorem canSleep_of_abs_le {milliseconds : ℤ} (bound : |milliseconds| ≤ 2 ^ 1024) :
    canSleep milliseconds = true := by
  have boundSeconds : |(milliseconds : ℚ) / (1000 : ℤ)| ≤ 2 ^ 1015 := by
    have isBound : |(milliseconds : ℚ)| ≤ 2 ^ 1024 := by
      simpa only [Int.cast_abs, Int.cast_pow, Int.cast_ofNat] using (@Int.cast_le ℚ).mpr bound
    rw [abs_div, div_le_iff₀ (by norm_num)]
    calc |(milliseconds : ℚ)| ≤ 2 ^ 1024 := isBound
      _ = 2 ^ 1015 * 2 ^ 9 := by rw [← pow_add]
      _ ≤ 2 ^ 1015 * |((1000 : ℤ) : ℚ)| := mul_le_mul_of_nonneg_left (by norm_num) (by positivity)
  rcases (Binary64.Within.round boundSeconds (by norm_num)).finite_or_negativeZero with
    ⟨seconds, isSeconds, -⟩ | isSeconds <;>
    simp only [canSleep, secondsOf, Binary64.ratio, isSeconds] <;> rfl

/-- Events whose pauses the clock can count. -/
def Countable (events : List PlayEvent) : Prop :=
  ∀ duration, .sleep duration ∈ events → canSleep duration = true

section Clocked

variable {events later : List PlayEvent}

theorem countable_append : Countable (events ++ later) ↔ Countable events ∧ Countable later := by
  simp only [Countable, List.mem_append, or_imp, forall_and]

theorem beforeOverlong?_eq_none (countable : Countable events) : beforeOverlong? events = none := by
  induction events with
  | nil => rfl
  | cons event later ih =>
      have isLater := ih fun duration inside => countable duration (List.mem_cons_of_mem _ inside)
      cases event with
      | sleep duration =>
          have first := countable duration List.mem_cons_self
          simp [beforeOverlong?, first, isLater]
      | update text => simp [beforeOverlong?, isLater]
      | final text => simp [beforeOverlong?, isLater]

theorem Trace.clocked_eq_self {trace : Trace} (countable : Countable trace.events) :
    trace.clocked = trace := by
  simp [clocked, beforeOverlong?_eq_none countable]

end Clocked

section Plan

variable {settings : Settings} {scene : Scene} {steps : List Step}

theorem Step.eq_duration_of_mem_events {step : Step} {duration : ℤ}
    (isPause : .sleep duration ∈ step.events settings) : duration = step.duration := by
  cases step with
  | unknown description => simp [events] at isPause
  | _ => simpa [events, Step.duration] using isPause

theorem countable_steps (isTimely : ∀ step ∈ steps, step.IsTimely (2 ^ 1024)) :
    Countable (steps.flatMap (Step.events settings)) := by
  intro duration isPause
  rcases List.mem_flatMap.mp isPause with ⟨step, inside, isEvent⟩
  rw [Step.eq_duration_of_mem_events isEvent]
  exact canSleep_of_abs_le (isTimely step inside).within

theorem Scene.countable_frameEvents (countable : canSleep settings.frameInterval = true)
    (frames : List String) : Countable (scene.frameEvents settings frames) := by
  intro duration isPause
  rcases List.mem_flatMap.mp isPause with ⟨frame, inside, isEvent⟩
  have isInterval : duration = settings.frameInterval := by simpa using isEvent
  rwa [isInterval]

/-- The frames are paused at only if there are some and they are passed over. -/
theorem Scene.countable_plan {cycles : ℕ}
    (isTimely : ∀ step ∈ scene.timeline.toList, step.IsTimely (2 ^ 1024))
    (countable : 0 < cycles → scene.frames.isEmpty = false → canSleep settings.frameInterval = true) :
    Countable (scene.plan settings cycles) := by
  rw [plan, countable_append]
  refine ⟨countable_steps isTimely, ?_⟩
  split
  · simp [Countable]
  · rename_i hasFrames
    rcases Nat.eq_zero_or_pos cycles with rfl | positive
    · simp [framesInTurn, frameEvents, Countable]
    · exact countable_frameEvents (countable positive (by simpa using hasFrames)) _

end Plan

/-- Whether the frames of a scene are shown for a bounded time: there are none, or they are passed over
a number of times that is given, with pauses that the clock can count. -/
inductive Invocation.IsBounded (invocation : Invocation) (settings : Settings) (scene : Scene) : Prop
  where
  | noFrames (noFrames : scene.frames.isEmpty = true) : invocation.IsBounded settings scene
  | atMost {count : ℤ} (isGiven : invocation.loops = .atMost count)
      (countable : 0 < count → canSleep settings.frameInterval = true) :
      invocation.IsBounded settings scene

namespace Invocation

variable {invocation : Invocation} {surroundings : Surroundings} {settings : Settings} {scene : Scene}
  (isTimely : ∀ step ∈ scene.timeline.toList, step.IsTimely (2 ^ 1024))

include isTimely

theorem timeline_clocked :
    (scene.playTimeline settings none).clocked =
      ⟨scene.timeline.toList.flatMap (Step.events settings), .finished⟩ := by
  have playable : ∀ step ∈ scene.timeline.toList, step.IsPlayable :=
    fun step inside => (isTimely step inside).isPlayable
  have played : scene.playTimeline settings none =
      ⟨scene.timeline.toList.flatMap (Step.events settings), .finished⟩ := by
    rw [Scene.playTimeline, Scene.timelineTrace_eq playable]
    rfl
  rw [played]
  exact Trace.clocked_eq_self (countable_steps isTimely)

/-- A scene that is shown for a bounded time is played to the end of a plan, by the clock as well. -/
theorem play_clocked (bounded : invocation.IsBounded settings scene) :
    ∃ cycles, (scene.play settings (invocation.passes settings.frameInterval) none).clocked =
      ⟨scene.plan settings cycles, .finished⟩ := by
  have playable : ∀ step ∈ scene.timeline.toList, step.IsPlayable :=
    fun step inside => (isTimely step inside).isPlayable
  cases bounded with
  | noFrames noFrames =>
      refine ⟨0, ?_⟩
      rw [Scene.play_of_no_frames playable noFrames _ none 0]
      exact Trace.clocked_eq_self (Scene.countable_plan isTimely (by simp))
  | @atMost count isGiven countable =>
      -- A pause that cannot be counted cuts the passes down to one at most.
      have passes : ∃ number : ℤ, invocation.passes settings.frameInterval = .atMost number ∧
          (0 < number → canSleep settings.frameInterval = true) := by
        unfold Invocation.passes
        rw [isGiven]
        split
        · exact ⟨count, rfl, countable⟩
        · exact ⟨min count 1, rfl, fun positive => countable (lt_min_iff.mp positive).1⟩
      rcases passes with ⟨number, isNumber, countableNumber⟩
      refine ⟨number.toNat, ?_⟩
      rw [isNumber, Scene.play_atMost playable]
      refine Trace.clocked_eq_self (Scene.countable_plan isTimely ?_)
      exact fun positive _ => countableNumber (Int.pos_iff_toNat_pos.mpr positive)

/-- Presenting a scene that is shown for a bounded time succeeds, unless it is interrupted. -/
theorem present_ending (uninterrupted : surroundings.interruptAt = none)
    (bounded : invocation.IsBounded settings scene) (display : Display) :
    (invocation.present surroundings settings display scene).ending = .exit 0 := by
  rcases play_clocked isTimely bounded with ⟨cycles, played⟩
  simp only [present, uninterrupted, timeline_clocked isTimely, played, if_true]
  rfl

end Invocation

end TermScene
