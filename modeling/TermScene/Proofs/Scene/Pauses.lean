import TermScene.Proofs.Playback.Plan
import TermScene.Proofs.Program.Durations
import TermScene.Proofs.Scene.Run

/-!
# How long the steps of a scene take

A step of a timeline takes as long as its turn says: a wait its duration, a picture of rainbow text the
time of a hue step, and one of an animation its share of the duration or the least delay. So every step of
an evaluated scene can be played, and none takes longer than the longest of these times.
-/

namespace TermScene

section Turns

mutual

theorem mem_all_of_turnsAt : (subject : Command) → (before : List Command) →
    ∀ turn ∈ turnsAt before subject, turn.command ∈ subject.all
  | .frame body place, before => by
      rw [turnsAt, List.forall_mem_append, List.forall_mem_singleton]
      refine ⟨?_, List.mem_cons_self⟩
      exact fun turn isTurn => List.mem_cons_of_mem _ (mem_allIn_of_turnsIn body [] turn isTurn)
  | .animate children duration place, before => by
      rw [turnsAt, List.forall_mem_append, List.forall_mem_singleton]
      refine ⟨?_, List.mem_cons_self⟩
      exact fun turn isTurn =>
        List.mem_cons_of_mem _ (mem_allIn_of_turnsInFrames children turn isTurn)
  | .background .., before | .draw .., before | .define .., before | .rainbow .., before
  | .wait .., before => List.forall_mem_singleton.mpr List.mem_cons_self

/-- A turn is that of a command in the block or inside it. -/
theorem mem_allIn_of_turnsIn : (block before : List Command) →
    ∀ turn ∈ turnsIn before block, turn.command ∈ allIn block
  | [], before => by simp [turnsIn]
  | first :: later, before => by
      rw [turnsIn, allIn, List.forall_mem_append]
      constructor
      · exact fun turn isTurn => List.mem_append_left _ (mem_all_of_turnsAt first before turn isTurn)
      · exact fun turn isTurn => List.mem_append_right _ (mem_allIn_of_turnsIn later _ turn isTurn)

theorem mem_allIn_of_turnsInFrames : (children : List Command) →
    ∀ turn ∈ turnsInFrames children, turn.command ∈ allIn children
  | [] => by simp [turnsInFrames]
  | .frame body place :: later => by
      rw [turnsInFrames, allIn, List.forall_mem_append]
      constructor
      · intro turn isTurn
        have inBody := mem_allIn_of_turnsIn body [] turn isTurn
        exact List.mem_append_left _ (List.mem_cons_of_mem _ inBody)
      · exact fun turn isTurn => List.mem_append_right _ (mem_allIn_of_turnsInFrames later turn isTurn)
  | .background .. :: later | .draw .. :: later | .define .. :: later | .rainbow .. :: later
  | .wait .. :: later | .animate .. :: later => fun turn isTurn =>
      List.mem_append_right _ (mem_allIn_of_turnsInFrames later turn isTurn)

end

end Turns

namespace Timing

variable {duration minDelay bound : ℤ} {timing : Timing}

theorem delay_of_ofAnimation {frameCount : ℤ}
    (timed : ofAnimation duration frameCount minDelay = .ok timing) :
    timing.delay = max minDelay (Int.fdiv duration frameCount) := by
  unfold ofAnimation at timed
  simp only at timed
  split_ifs at timed with noFrames noDelay
  · rw [← Except.ok.inj timed]
  · split at timed
    · simp at timed
    · split at timed
      · rw [← Except.ok.inj timed]
      · simp at timed

/-- A frame is shown for its share of the duration, which is no longer than the whole, or for the least
delay. -/
theorem abs_delay_le {count : ℕ} (timed : ofAnimation duration count minDelay = .ok timing)
    (least : |minDelay| ≤ bound) (whole : |duration| ≤ bound) : |timing.delay| ≤ bound := by
  rw [delay_of_ofAnimation timed]
  rcases max_choice minDelay (Int.fdiv duration count) with isLeast | isShare
  · rwa [isLeast]
  · rw [isShare, Int.fdiv_eq_ediv_of_nonneg _ (Int.natCast_nonneg count)]
    exact (Int.abs_ediv_le_abs duration count).trans whole

end Timing

section Steps

variable {settings : Settings} {lettering : Lettering} {bound : ℤ}

/-- A step that can be played and does not take longer than a bound. -/
structure Step.IsTimely (bound : ℤ) (step : Step) : Prop where
  isPlayable : step.IsPlayable
  within : |step.duration| ≤ bound

/-- The times that settings give to steps are within a bound. -/
structure Settings.IsTimely (bound : ℤ) (settings : Settings) : Prop where
  rainbowStep : |settings.rainbowStep| ≤ bound
  minFrameDelay : |settings.minFrameDelay| ≤ bound

theorem isTimely_of_animationPictures {background : String} {frames : List String} {duration : ℤ}
    {steps : List Step} (isTimely : settings.IsTimely bound) (whole : |duration| ≤ bound)
    (pictures : animationPictures settings background frames duration = .ok steps) :
    ∀ step ∈ steps, step.IsTimely bound := by
  unfold animationPictures at pictures
  split at pictures
  · simp only [bind_eq_ok_iff, mapError_eq_ok_iff] at pictures
    rcases pictures with ⟨timing, timed, isSteps⟩
    have delay := Timing.abs_delay_le timed isTimely.minFrameDelay whole
    rw [← Except.ok.inj isSteps, List.forall_mem_map]
    exact fun index _ => ⟨trivial, delay⟩
  · rw [← Except.ok.inj pictures]
    simp

theorem Turn.isTimely_of_steps {turn : Turn} {background : String} {added : List Step}
    (isTimely : settings.IsTimely bound)
    (takes : ∀ duration ∈ turn.command.duration?, |duration| ≤ bound)
    (isSteps : turn.steps settings lettering background = .ok added) :
    ∀ step ∈ added, step.IsTimely bound := by
  rcases turn with ⟨before, command⟩
  cases command with
  | wait duration place =>
      rw [← Except.ok.inj isSteps, List.forall_mem_singleton]
      exact ⟨trivial, takes duration rfl⟩
  | rainbow text x y duration place =>
      simp only [Turn.steps, bind_eq_ok_iff] at isSteps
      rcases isSteps with ⟨content, own, overlays, made, isSteps⟩
      rw [← Except.ok.inj isSteps, List.forall_mem_map]
      exact fun overlay _ => ⟨trivial, isTimely.rainbowStep⟩
  | animate children duration place =>
      simp only [Turn.steps, bind_eq_ok_iff] at isSteps
      rcases isSteps with ⟨frames, drawn, pictures⟩
      exact isTimely_of_animationPictures isTimely (takes duration rfl) pictures
  | _ =>
      rw [← Except.ok.inj isSteps]
      simp

/-- What holds of the steps of every turn and of the steps so far holds after a run. -/
theorem Runs.forall_step {holds : Step → Prop} {turns : List Turn} {stage after : Stage}
    (runs : Runs settings lettering turns stage after)
    (each : ∀ turn ∈ turns, ∀ background steps, turn.steps settings lettering background = .ok steps →
      ∀ step ∈ steps, holds step)
    (soFar : ∀ step ∈ stage.timeline.toList, holds step) :
    ∀ step ∈ after.timeline.toList, holds step := by
  induction runs with
  | none => exact soFar
  | some acts more ih =>
      rcases List.forall_mem_cons.mp each with ⟨first, later⟩
      rcases acts.timeline with ⟨steps, isSteps, added⟩
      apply ih later
      rw [added, List.forall_mem_append]
      exact ⟨soFar, first _ steps isSteps⟩

/-- Every step of an evaluated scene can be played and takes no longer than the durations in the program
and the times that the settings give. -/
theorem Program.isTimely_of_evaluate {program : Program} {scene : Scene}
    (isTimely : settings.IsTimely bound)
    (takes : ∀ command ∈ allIn program.commands, ∀ duration ∈ command.duration?, |duration| ≤ bound)
    (evaluated : (program.evaluate settings lettering).outcome = .ok scene) :
    ∀ step ∈ scene.timeline.toList, step.IsTimely bound := by
  rcases runs_of_evaluate evaluated with ⟨output, after, own, runs, rfl⟩
  refine runs.forall_step ?_ (by simp)
  intro turn isTurn background steps isSteps
  have inside := mem_allIn_of_turnsIn program.commands [] turn isTurn
  exact turn.isTimely_of_steps isTimely (takes turn.command inside) isSteps

end Steps

end TermScene
