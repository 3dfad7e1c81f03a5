import Mathlib.Algebra.BigOperators.Group.List.Lemmas
import Mathlib.Data.List.Flatten
import Mathlib.Tactic.Ring
import TermScene.Playback

/-!
# Playing as planned

The plan for a scene lists the events of its playback for a number of passes over the frames, step by
step and frame by frame. A playback that nothing stops follows the plan to its end. One that is stopped
at a pause follows the plan up to that pause and does nothing more; when the passes are endless, any
plan that is long enough will do.

A longer plan only adds events at the end, so that it does not matter how many passes are prepared for a
playback that is stopped: at least one pause in each is enough.
-/

namespace TermScene

namespace PlayEvent

def pause? : PlayEvent → Option Int
  | .sleep duration => some duration
  | _ => none

end PlayEvent

def pauses (events : List PlayEvent) : ℕ := (events.filterMap PlayEvent.pause?).length

/-- The time that is slept in some events, in milliseconds. -/
def timeSlept (events : List PlayEvent) : ℤ := (events.filterMap PlayEvent.pause?).sum

/-- Some events are the first ones of a sequence, the last of them being its pause of a given number. -/
def EndsAtPause (number : ℕ) (sequence events : List PlayEvent) : Prop :=
  events <+: sequence ∧ pauses events = number ∧ ∃ front duration, events = front ++ [.sleep duration]

section Counting

variable {later : List PlayEvent}

@[simp]
theorem pauses_nil : pauses [] = 0 := rfl

@[simp]
theorem pauses_sleep (duration : ℤ) : pauses (.sleep duration :: later) = pauses later + 1 := rfl

@[simp]
theorem pauses_update (text : String) : pauses (.update text :: later) = pauses later := rfl

@[simp]
theorem pauses_final (text : String) : pauses (.final text :: later) = pauses later := rfl

@[simp]
theorem pauses_append (first later : List PlayEvent) :
    pauses (first ++ later) = pauses first + pauses later := by
  simp [pauses]

@[simp]
theorem timeSlept_nil : timeSlept [] = 0 := rfl

@[simp]
theorem timeSlept_sleep (duration : ℤ) :
    timeSlept (.sleep duration :: later) = duration + timeSlept later := rfl

@[simp]
theorem timeSlept_update (text : String) : timeSlept (.update text :: later) = timeSlept later := rfl

@[simp]
theorem timeSlept_final (text : String) : timeSlept (.final text :: later) = timeSlept later := rfl

@[simp]
theorem timeSlept_append (first later : List PlayEvent) :
    timeSlept (first ++ later) = timeSlept first + timeSlept later := by
  simp [timeSlept]

end Counting

section Stopping

variable {number : ℕ} {sequence events : List PlayEvent}

theorem throughSleep?_append_sleep (front : List PlayEvent) (duration : ℤ) (rest : List PlayEvent) :
    throughSleep? (front ++ .sleep duration :: rest) (pauses front + 1) =
      some (front ++ [.sleep duration]) := by
  induction front with
  | nil => simp [throughSleep?]
  | cons event later ih => cases event <;> simp [throughSleep?, ih]

theorem EndsAtPause.throughSleep? (ends : EndsAtPause number sequence events) :
    throughSleep? sequence number = some events := by
  rcases ends with ⟨⟨rest, rfl⟩, rfl, front, duration, rfl⟩
  rw [pauses_append, pauses_sleep, pauses_nil, List.append_assoc]
  exact throughSleep?_append_sleep front duration rest

theorem EndsAtPause.of_longer {longer : List PlayEvent} (ends : EndsAtPause number sequence events)
    (isPrefix : sequence <+: longer) : EndsAtPause number longer events :=
  ⟨ends.1.trans isPrefix, ends.2⟩

/-- In two sequences one of which goes on with the other, a pause ends the same events. -/
theorem EndsAtPause.unique {longer others : List PlayEvent} (ends : EndsAtPause number sequence events)
    (endsLonger : EndsAtPause number longer others) (isPrefix : sequence <+: longer) :
    events = others := by
  have same := (ends.of_longer isPrefix).throughSleep?.symm.trans endsLonger.throughSleep?
  simpa using same

/-- Events before a pause do not change which pause ends them. -/
theorem EndsAtPause.cons (ends : EndsAtPause number sequence events) (event : PlayEvent) :
    EndsAtPause (pauses [event] + number) (event :: sequence) (event :: events) := by
  rcases ends with ⟨isPrefix, rfl, front, duration, rfl⟩
  exact ⟨(List.prefix_cons_inj event).mpr isPrefix, pauses_append [event] _, event :: front, duration,
    rfl⟩

theorem exists_endsAtPause (positive : 0 < number) (enough : number ≤ pauses sequence) :
    ∃ events, EndsAtPause number sequence events := by
  induction sequence generalizing number with
  | nil =>
      rw [pauses_nil] at enough
      omega
  | cons event later ih =>
      cases event with
      | sleep duration =>
          rw [pauses_sleep] at enough
          by_cases isFirst : number = 1
          · subst isFirst
            exact ⟨[.sleep duration], ⟨later, rfl⟩, rfl, [], duration, rfl⟩
          · rcases @ih (number - 1) (by omega) (by omega) with ⟨events, ends⟩
            have next := ends.cons (.sleep duration)
            rw [pauses_sleep, pauses_nil, Nat.zero_add, Nat.add_sub_cancel' positive] at next
            exact ⟨_, next⟩
      | update text =>
          rcases ih positive enough with ⟨events, ends⟩
          have next := ends.cons (.update text)
          rw [pauses_update, pauses_nil, Nat.zero_add] at next
          exact ⟨_, next⟩
      | final text =>
          rcases ih positive enough with ⟨events, ends⟩
          have next := ends.cons (.final text)
          rw [pauses_final, pauses_nil, Nat.zero_add] at next
          exact ⟨_, next⟩

theorem throughSleep?_eq_none (few : pauses sequence < number) :
    throughSleep? sequence number = none := by
  induction sequence generalizing number with
  | nil => rfl
  | cons event later ih =>
      cases event with
      | sleep duration =>
          rw [pauses_sleep] at few
          rw [throughSleep?, if_neg (by omega), ih (by omega)]
          rfl
      | update text => simp [throughSleep?, ih few]
      | final text => simp [throughSleep?, ih few]

theorem Trace.stopAt_of_endsAtPause {ending : PlayEnd} (ends : EndsAtPause number sequence events) :
    (Trace.mk sequence ending).stopAt (some number) = ⟨events, .stopped⟩ := by
  simp [stopAt, ends.throughSleep?]

theorem Trace.stopAt_of_few {ending : PlayEnd} (few : pauses sequence < number) :
    (Trace.mk sequence ending).stopAt (some number) = ⟨sequence, ending⟩ := by
  simp [stopAt, throughSleep?_eq_none few]

end Stopping

namespace Step

/-- A picture is shown and held, a pause is only slept. -/
def events (settings : Settings) : Step → List PlayEvent
  | .picture content background hold overlay =>
      [.update (compose settings background (content ++ overlay)), .sleep hold]
  | .pause duration => [.sleep duration]
  | .unknown _ => []

def IsPlayable : Step → Prop
  | .picture .. => True
  | .pause _ => True
  | .unknown _ => False

variable {settings : Settings} {step : Step}

theorem timeSlept_events (step : Step) : timeSlept (step.events settings) = step.duration := by
  cases step <;> simp [events, duration]

theorem final_not_mem_events (text : String) : .final text ∉ step.events settings := by
  cases step <;> simp [events]

end Step

namespace Scene

variable {settings : Settings} {scene : Scene} {cycles : ℕ}

/-- Some frames, each shown over the background in the end and held. -/
def frameEvents (settings : Settings) (scene : Scene) (frames : List String) : List PlayEvent :=
  frames.flatMap fun frame =>
    [.update (compose settings scene.background frame), .sleep settings.frameInterval]

/-- The frames of a scene in their order, so many times. -/
def framesInTurn (scene : Scene) (cycles : ℕ) : List String :=
  (List.replicate cycles scene.frames.toList).flatten

/-- The events of playing a scene: its timeline step by step, and then its frames, so many passes over
them, or, if it has none, its output. -/
def plan (settings : Settings) (scene : Scene) (cycles : ℕ) : List PlayEvent :=
  scene.timeline.toList.flatMap (Step.events settings) ++
    if scene.frames.isEmpty then [.final (compose settings scene.background scene.output)]
    else scene.frameEvents settings (scene.framesInTurn cycles)

section Plan

theorem timelineTrace_eq {steps : List Step} (playable : ∀ step ∈ steps, step.IsPlayable) :
    timelineTrace settings steps = ⟨steps.flatMap (Step.events settings), .finished⟩ := by
  induction steps with
  | nil => rfl
  | cons step later ih =>
      rcases List.forall_mem_cons.mp playable with ⟨isPlayable, areLater⟩
      cases step with
      | picture content background hold overlay =>
          simp [timelineTrace, ih areLater, Trace.after, Step.events]
      | pause duration => simp [timelineTrace, ih areLater, Trace.after, Step.events]
      | unknown description => exact absurd isPlayable id

theorem passesTrace_eq (cycles : ℕ) :
    scene.passesTrace settings cycles =
      ⟨scene.frameEvents settings (scene.framesInTurn cycles), .finished⟩ := by
  simp [passesTrace, frameEvents, framesInTurn, passEvents, List.flatMap_def, List.map_flatten,
    List.flatten_flatten]

theorem plan_grows {more : ℕ} (fewer : cycles ≤ more) :
    scene.plan settings cycles <+: scene.plan settings more := by
  rw [plan, plan, List.prefix_append_right_inj]
  split
  · exact List.prefix_rfl
  · obtain ⟨others, rfl⟩ := Nat.exists_eq_add_of_le fewer
    refine ⟨scene.frameEvents settings (scene.framesInTurn others), ?_⟩
    simp only [frameEvents, framesInTurn, List.replicate_add, List.flatten_append,
      List.flatMap_append]

theorem pauses_frameEvents (frames : List String) :
    pauses (scene.frameEvents settings frames) = frames.length := by
  induction frames with
  | nil => rfl
  | cons frame later ih => simpa [frameEvents] using ih

theorem timeSlept_frameEvents (frames : List String) :
    timeSlept (scene.frameEvents settings frames) = frames.length * settings.frameInterval := by
  induction frames with
  | nil => simp [frameEvents]
  | cons frame later ih =>
      have first : scene.frameEvents settings (frame :: later) =
          .update (compose settings scene.background frame) :: .sleep settings.frameInterval ::
            scene.frameEvents settings later := rfl
      rw [first, timeSlept_update, timeSlept_sleep, ih, List.length_cons]
      push_cast
      ring

theorem final_not_mem_frameEvents (frames : List String) (text : String) :
    .final text ∉ scene.frameEvents settings frames := by
  simp [frameEvents]

theorem length_framesInTurn (cycles : ℕ) :
    (scene.framesInTurn cycles).length = cycles * scene.frames.size := by
  simp [framesInTurn]

/-- Every pass holds a pause, so that a plan for so many passes has as many pauses. -/
theorem le_pauses_plan (settings : Settings) (hasFrames : scene.frames.isEmpty = false) (cycles : ℕ) :
    cycles ≤ pauses (scene.plan settings cycles) := by
  have positive : 0 < scene.frames.size := by
    rw [Array.isEmpty_eq_false_iff] at hasFrames
    exact Array.size_pos_iff.mpr hasFrames
  rw [plan, hasFrames, pauses_append, if_neg (by simp), pauses_frameEvents, length_framesInTurn]
  calc cycles = cycles * 1 := (Nat.mul_one cycles).symm
    _ ≤ cycles * scene.frames.size := Nat.mul_le_mul_left cycles positive
    _ ≤ _ := Nat.le_add_left _ _

theorem timeSlept_steps (steps : List Step) :
    timeSlept (steps.flatMap (Step.events settings)) = (steps.map Step.duration).sum := by
  induction steps with
  | nil => rfl
  | cons step later ih =>
      rw [List.flatMap_cons, timeSlept_append, Step.timeSlept_events, ih, List.map_cons, List.sum_cons]

theorem totalDuration_eq_sum : scene.totalDuration = (scene.timeline.toList.map Step.duration).sum := by
  rw [totalDuration, ← Array.foldl_toList, List.sum_eq_foldl, List.foldl_map]

/-- The time slept in a plan. Where there are no frames, passes over them take none. -/
theorem timeSlept_plan (cycles : ℕ) :
    timeSlept (scene.plan settings cycles) =
      scene.totalDuration + cycles * scene.frames.size * settings.frameInterval := by
  rw [plan, timeSlept_append, timeSlept_steps, ← totalDuration_eq_sum]
  split
  · rename_i noFrames
    rw [Array.isEmpty_iff] at noFrames
    simp [noFrames]
  · rw [timeSlept_frameEvents, length_framesInTurn]
    push_cast
    rfl

end Plan

section Play

theorem passesTrace_after (settings : Settings) (hasFrames : scene.frames.isEmpty = false) (cycles : ℕ) :
    (scene.passesTrace settings cycles).after
        (scene.timeline.toList.flatMap (Step.events settings)) =
      ⟨scene.plan settings cycles, .finished⟩ := by
  rw [passesTrace_eq, plan, hasFrames, if_neg (by simp)]
  rfl

variable (playable : ∀ step ∈ scene.timeline.toList, step.IsPlayable)

include playable

theorem play_eq (passes : Passes) (stop : Option ℕ) :
    scene.play settings passes stop =
      ((scene.closing settings passes stop).after
        (scene.timeline.toList.flatMap (Step.events settings))).stopAt stop := by
  rw [play, timelineTrace_eq playable]
  rfl

/-- Without frames the output is what follows the timeline, whatever is said about passes. -/
theorem play_of_no_frames (noFrames : scene.frames.isEmpty = true) (passes : Passes)
    (stop : Option ℕ) (cycles : ℕ) :
    scene.play settings passes stop = (Trace.mk (scene.plan settings cycles) .finished).stopAt stop := by
  rw [play_eq playable, closing, plan, noFrames]
  rfl

theorem play_atMost (bound : ℤ) :
    scene.play settings (.atMost bound) none = ⟨scene.plan settings bound.toNat, .finished⟩ := by
  cases hasFrames : scene.frames.isEmpty with
  | true => exact play_of_no_frames playable hasFrames (.atMost bound) none bound.toNat
  | false =>
      rw [play_eq playable, closing, hasFrames]
      unfold frameTrace
      rw [hasFrames]
      exact passesTrace_after settings hasFrames bound.toNat

/-- A playback with a bound is stopped on its plan, although no more passes are prepared than the
stopping pause can need. -/
theorem play_atMost_stopped {number : ℕ} (positive : 0 < number) (bound : ℤ) :
    scene.play settings (.atMost bound) (some number) =
      (Trace.mk (scene.plan settings bound.toNat) .finished).stopAt (some number) := by
  cases hasFrames : scene.frames.isEmpty with
  | true => exact play_of_no_frames playable hasFrames (.atMost bound) (some number) bound.toNat
  | false =>
      obtain ⟨last, rfl⟩ := Nat.exists_eq_add_one.mpr positive
      have prepared : scene.play settings (.atMost bound) (some (last + 1)) =
          (Trace.mk (scene.plan settings (min bound.toNat (last + 1))) .finished).stopAt
            (some (last + 1)) := by
        rw [play_eq playable, closing, frameTrace, hasFrames]
        exact congrArg (Trace.stopAt · (some (last + 1))) (passesTrace_after settings hasFrames _)
      rw [prepared]
      rcases Nat.le_total bound.toNat (last + 1) with few | many
      · rw [Nat.min_eq_left few]
      · rw [Nat.min_eq_right many]
        rcases exists_endsAtPause positive (le_pauses_plan settings hasFrames (last + 1))
          with ⟨events, ends⟩
        rw [Trace.stopAt_of_endsAtPause ends, Trace.stopAt_of_endsAtPause
          (ends.of_longer (plan_grows many))]

/-- An endless playback that is stopped is stopped on every plan that comes so far. -/
theorem play_endless_stopped {number : ℕ} (positive : 0 < number)
    (enough : number ≤ pauses (scene.plan settings cycles)) :
    ∃ events, EndsAtPause number (scene.plan settings cycles) events ∧
      scene.play settings .endless (some number) = ⟨events, .stopped⟩ := by
  rcases exists_endsAtPause positive enough with ⟨events, ends⟩
  refine ⟨events, ends, ?_⟩
  cases hasFrames : scene.frames.isEmpty with
  | true =>
      rw [play_of_no_frames playable hasFrames .endless (some number) cycles]
      exact Trace.stopAt_of_endsAtPause ends
  | false =>
      obtain ⟨last, rfl⟩ := Nat.exists_eq_add_one.mpr positive
      have prepared : scene.play settings .endless (some (last + 1)) =
          (Trace.mk (scene.plan settings (last + 1)) .looping).stopAt (some (last + 1)) := by
        rw [play_eq playable, closing, frameTrace, hasFrames]
        have passes := passesTrace_after settings hasFrames (last + 1)
        exact congrArg (fun trace => Trace.stopAt { trace with ending := .looping } (some (last + 1)))
          passes
      rcases exists_endsAtPause positive (le_pauses_plan settings hasFrames (last + 1))
        with ⟨others, endsOthers⟩
      have same : others = events := by
        rcases Nat.le_total (last + 1) cycles with fewer | more
        · exact endsOthers.unique ends (plan_grows fewer)
        · exact (ends.unique endsOthers (plan_grows more)).symm
      rw [prepared, ← same]
      exact Trace.stopAt_of_endsAtPause endsOthers

end Play

/-- What playing a scene comes to, told by its plan: with a bound on the passes and nothing that stops
it, stopped at a pause of the plan, or to be stopped at a pause that the plan does not have. The output
is shown exactly once, in the end, if there are no frames, and else never. -/
structure FollowsPlan (settings : Settings) (scene : Scene) : Prop where
  whole : ∀ bound : ℤ,
    scene.play settings (.atMost bound) none = ⟨scene.plan settings bound.toNat, .finished⟩
  slept : ∀ bound : ℤ, timeSlept (scene.plan settings bound.toNat) =
    scene.totalDuration + max 0 bound * scene.frames.size * settings.frameInterval
  finalOnce : scene.frames.isEmpty = true → ∀ cycles, ∃ front,
    scene.plan settings cycles = front ++ [.final (compose settings scene.background scene.output)] ∧
      ∀ text, .final text ∉ front
  finalNever : scene.frames.isEmpty = false → ∀ cycles text, .final text ∉ scene.plan settings cycles
  stopped : ∀ (bound : ℤ) (number : ℕ), 0 < number →
    number ≤ pauses (scene.plan settings bound.toNat) →
      ∃ events, EndsAtPause number (scene.plan settings bound.toNat) events ∧
        scene.play settings (.atMost bound) (some number) = ⟨events, .stopped⟩
  notReached : ∀ (bound : ℤ) (number : ℕ), pauses (scene.plan settings bound.toNat) < number →
    scene.play settings (.atMost bound) (some number) =
      ⟨scene.plan settings bound.toNat, .finished⟩
  endless : ∀ cycles number : ℕ, 0 < number → number ≤ pauses (scene.plan settings cycles) →
    ∃ events, EndsAtPause number (scene.plan settings cycles) events ∧
      scene.play settings .endless (some number) = ⟨events, .stopped⟩
  longEnough : scene.frames.isEmpty = false → ∀ number,
    number ≤ pauses (scene.plan settings number)
  endlessNotReached : scene.frames.isEmpty = true → ∀ cycles number : ℕ,
    pauses (scene.plan settings cycles) < number →
      scene.play settings .endless (some number) = ⟨scene.plan settings cycles, .finished⟩

theorem play_followsPlan (playable : ∀ step ∈ scene.timeline.toList, step.IsPlayable) :
    scene.FollowsPlan settings := by
  constructor
  case whole => exact play_atMost playable
  case slept =>
    intro bound
    rw [timeSlept_plan, Int.toNat_eq_max, max_comm]
  case finalOnce =>
    intro noFrames cycles
    refine ⟨_, by rw [plan, noFrames, if_pos rfl], ?_⟩
    intro text
    simp [Step.final_not_mem_events]
  case finalNever =>
    intro hasFrames cycles text
    rw [plan, hasFrames, if_neg (by simp)]
    simp [Step.final_not_mem_events, final_not_mem_frameEvents]
  case stopped =>
    intro bound number positive enough
    rcases exists_endsAtPause positive enough with ⟨events, ends⟩
    exact ⟨events, ends, by
      rw [play_atMost_stopped playable positive, Trace.stopAt_of_endsAtPause ends]⟩
  case notReached =>
    intro bound number few
    rw [play_atMost_stopped playable (by omega), Trace.stopAt_of_few few]
  case endless => exact fun cycles number => play_endless_stopped playable
  case longEnough => exact fun hasFrames => le_pauses_plan settings hasFrames
  case endlessNotReached =>
    intro noFrames cycles number few
    rw [play_of_no_frames playable noFrames .endless (some number) cycles, Trace.stopAt_of_few few]

/-- A picture and a pause, and two frames that are passed over for ever: the fourth pause is that of the
second frame. -/
theorem play_followsPlan_frames :
    ∃ (settings : Settings) (scene : Scene),
      (∀ step ∈ scene.timeline.toList, step.IsPlayable) ∧
        scene.play settings .endless (some 4) =
          ⟨[.update "AB", .sleep 10, .sleep 7, .update "F", .sleep 100, .update "G", .sleep 100],
            .stopped⟩ ∧
        scene.FollowsPlan settings := by
  let scene : Scene :=
    { timeline := #[.picture "A" "red" 10 "B", .pause 7], frames := #["F", "G"] }
  have playable : ∀ step ∈ scene.timeline.toList, step.IsPlayable := by
    simp [scene, Step.IsPlayable]
  exact ⟨{ color := false }, scene, playable, by decide +kernel, play_followsPlan playable⟩

end Scene

end TermScene
