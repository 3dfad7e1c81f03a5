import TermScene.Playback
import TermScene.Proofs.Scene.Uncolored

/-!
# Colour is for show only

What a program is evaluated to with colours off is what it is evaluated to with colours on, less the
colour codes, and so is what playback shows. An overlay is shown behind the content of its step, so the
codes of the two can be deleted apart only because no content ends inside one.
-/

namespace TermScene

open Terminal

def Step.uncolored : Step → Step
  | .picture content background hold overlay =>
      .picture (Terminal.uncolored content) background hold (Terminal.uncolored overlay)
  | .pause duration => .pause duration
  | .unknown description => .unknown description

/-- A scene without its colour codes; everything that is not shown stays as it is. -/
def Scene.uncolored (scene : Scene) : Scene :=
  { scene with
    timeline := scene.timeline.map Step.uncolored
    frames := scene.frames.map Terminal.uncolored
    output := Terminal.uncolored scene.output }

def PlayEvent.uncolored : PlayEvent → PlayEvent
  | .update text => .update (Terminal.uncolored text)
  | .final text => .final (Terminal.uncolored text)
  | .sleep duration => .sleep duration

/-- A playback of which the colour codes are deleted from everything that is shown. -/
def Trace.uncolored (trace : Trace) : Trace :=
  { trace with events := trace.events.map PlayEvent.uncolored }

/-- A step whose content ends outside a colour code, so that an overlay can follow it. -/
def Step.IsWhole : Step → Prop
  | .picture content _ _ _ => Terminal.ReadsAs content (Terminal.uncolored content)
  | _ => True

theorem Step.ReadsAs.uncolored_eq {step plain : Step} (reads : step.ReadsAs plain) :
    step.uncolored = plain := by
  cases reads with
  | picture background hold contents overlays =>
      simp [Step.uncolored, contents.uncolored_eq, overlays.uncolored_eq]
  | pause duration => rfl

theorem Step.ReadsAs.isWhole {step plain : Step} (reads : step.ReadsAs plain) : step.IsWhole := by
  cases reads with
  | picture background hold contents overlays =>
      rw [Step.IsWhole, contents.uncolored_eq]
      exact contents
  | pause duration => trivial

namespace Stage.ReadsAs

variable {stage plain : Stage}

theorem scene_uncolored (reads : stage.ReadsAs plain) : stage.scene.uncolored = plain.scene := by
  have frames : List.Forall₂ Eq (stage.frames.toList.map Terminal.uncolored) plain.frames.toList :=
    List.forall₂_map_left_iff.mpr (reads.frames.imp fun _ _ texts => texts.uncolored_eq)
  have timeline : List.Forall₂ Eq (stage.timeline.toList.map Step.uncolored) plain.timeline.toList :=
    List.forall₂_map_left_iff.mpr (reads.timeline.imp fun _ _ steps => steps.uncolored_eq)
  rw [List.forall₂_eq_eq_eq] at frames timeline
  simp only [Scene.uncolored, Stage.scene, Scene.mk.injEq, reads.background, reads.bindings,
    reads.output.uncolored_eq, and_self, and_true]
  exact ⟨Array.toList_inj.mp (by simpa using timeline), Array.toList_inj.mp (by simpa using frames)⟩

theorem isWhole (reads : stage.ReadsAs plain) : ∀ step ∈ stage.timeline.toList, step.IsWhole :=
  ((List.forall₂_and_left _ _).mp (reads.timeline.imp fun _ _ steps => ⟨steps.isWhole, steps⟩)).1

end Stage.ReadsAs

section Playback

variable (settings : Settings) {scene : Scene}

theorem throughSleep?_uncolored (events : List PlayEvent) (number : Nat) :
    throughSleep? (events.map PlayEvent.uncolored) number =
      (throughSleep? events number).map (List.map PlayEvent.uncolored) := by
  induction events generalizing number with
  | nil => rfl
  | cons event later ih =>
      cases event with
      | update text => simp [throughSleep?, PlayEvent.uncolored, ih, Function.comp_def]
      | final text => simp [throughSleep?, PlayEvent.uncolored, ih, Function.comp_def]
      | sleep duration =>
          simp only [throughSleep?, List.map_cons, PlayEvent.uncolored]
          split
          · rfl
          · simp [ih, Function.comp_def, PlayEvent.uncolored]

theorem Trace.stopAt_uncolored (trace : Trace) (number : Option Nat) :
    trace.uncolored.stopAt number = (trace.stopAt number).uncolored := by
  cases number with
  | none => rfl
  | some number =>
      simp only [stopAt, uncolored, Option.bind_some, throughSleep?_uncolored]
      cases throughSleep? trace.events number <;> rfl

theorem Trace.after_uncolored (events : List PlayEvent) (trace : Trace) :
    trace.uncolored.after (events.map PlayEvent.uncolored) = (trace.after events).uncolored := by
  simp [Trace.after, Trace.uncolored]

namespace Scene

theorem timelineTrace_uncolored {steps : List Step} (whole : ∀ step ∈ steps, step.IsWhole) :
    timelineTrace { settings with color := false } (steps.map Step.uncolored) =
      (timelineTrace { settings with color := true } steps).uncolored := by
  induction steps with
  | nil => rfl
  | cons step later ih =>
      rcases List.forall_mem_cons.mp whole with ⟨isWhole, laterWhole⟩
      cases step with
      | picture content background hold overlay =>
          simp only [Step.IsWhole] at isWhole
          simp only [List.map_cons, Step.uncolored, timelineTrace, ← Trace.after_uncolored,
            PlayEvent.uncolored, uncolored_compose, isWhole.uncolored_append, ih laterWhole,
            List.map_nil]
      | pause duration =>
          simp only [List.map_cons, Step.uncolored, timelineTrace, ← Trace.after_uncolored,
            PlayEvent.uncolored, ih laterWhole, List.map_nil]
      | unknown description => rfl

theorem passesTrace_uncolored (count : Nat) :
    scene.uncolored.passesTrace { settings with color := false } count =
      (scene.passesTrace { settings with color := true } count).uncolored := by
  have pass : scene.uncolored.passEvents { settings with color := false } =
      (scene.passEvents { settings with color := true }).map PlayEvent.uncolored := by
    simp [passEvents, uncolored, List.flatMap_map, List.map_flatMap, PlayEvent.uncolored,
      uncolored_compose]
  simp [passesTrace, Trace.uncolored, pass, List.map_flatten]

theorem isEmpty_frames_uncolored : scene.uncolored.frames.isEmpty = scene.frames.isEmpty := by
  simp [uncolored, Array.isEmpty]

theorem frameTrace_uncolored (passes : Passes) (stop : Option Nat) :
    scene.uncolored.frameTrace { settings with color := false } passes stop =
      (scene.frameTrace { settings with color := true } passes stop).uncolored := by
  unfold frameTrace
  rw [isEmpty_frames_uncolored]
  split
  · rfl
  · split
    · rfl
    · exact passesTrace_uncolored settings _
    · exact passesTrace_uncolored settings _
    · rw [passesTrace_uncolored]
      rfl
    · rfl

theorem closing_uncolored (passes : Passes) (stop : Option Nat) :
    scene.uncolored.closing { settings with color := false } passes stop =
      (scene.closing { settings with color := true } passes stop).uncolored := by
  unfold closing
  rw [isEmpty_frames_uncolored]
  split
  · simp [Trace.uncolored, PlayEvent.uncolored, uncolored_compose, uncolored]
  · exact frameTrace_uncolored settings passes stop

/-- A scene without its codes is played, with colours off, as the scene is with colours on. -/
theorem play_uncolored (whole : ∀ step ∈ scene.timeline.toList, step.IsWhole) (passes : Passes)
    (stop : Option Nat) :
    scene.uncolored.play { settings with color := false } passes stop =
      (scene.play { settings with color := true } passes stop).uncolored := by
  have timeline : timelineTrace { settings with color := false } scene.uncolored.timeline.toList =
      (timelineTrace { settings with color := true } scene.timeline.toList).uncolored := by
    simpa [uncolored] using timelineTrace_uncolored settings whole
  unfold play
  rw [timeline, closing_uncolored]
  generalize timelineTrace { settings with color := true } scene.timeline.toList = trace
  have ending : trace.uncolored.ending = trace.ending := rfl
  have events : trace.uncolored.events = trace.events.map PlayEvent.uncolored := rfl
  simp only [ending, events, Trace.after_uncolored, Trace.stopAt_uncolored]
  split <;> rfl

end Scene

end Playback

section Twice

variable {settings : Settings} {lettering : Lettering} {program : Program}

theorem Program.evaluate_alike (isPlain : ArePlain (textsIn program.commands))
    (plainFonts : settings.HasPlainFonts lettering) :
    Alike (fun scene plain => scene.uncolored = plain ∧ ∀ step ∈ scene.timeline.toList, step.IsWhole)
      (program.evaluate { settings with color := true } lettering).outcome
      (program.evaluate { settings with color := false } lettering).outcome := by
  have ends := Evaluating.commands_runsAlike plainFonts program.commands isPlain .empty _ _ .start
  unfold evaluate EStateM.run
  generalize Evaluating.commands { settings with color := true } lettering program.commands "" {} =
    colored at ends ⊢
  generalize Evaluating.commands { settings with color := false } lettering program.commands "" {} =
    plain at ends ⊢
  cases ends with
  | @ok output plainOutput stage plainStage outputs stages =>
      have reads : Stage.ReadsAs { stage with output } { plainStage with output := plainOutput } :=
        { stages with output := outputs }
      exact .ok ⟨reads.scene_uncolored, reads.isWhole⟩
  | error failure stages => exact .error failure

/-- Colour is for show only: with colours off a program comes to the scene that it comes to with colours
on, less the codes, or to the same failure; what is composed over a background differs by codes alone;
and so does what playback shows. -/
structure ColorIsForShow (settings : Settings) (lettering : Lettering) (program : Program) : Prop where
  outcome : (program.evaluate { settings with color := false } lettering).outcome =
    (program.evaluate { settings with color := true } lettering).outcome.map Scene.uncolored
  composed : ∀ background content,
    compose { settings with color := false } background (uncolored content) =
      uncolored (compose { settings with color := true } background content)
  played : ∀ scene, (program.evaluate { settings with color := true } lettering).outcome = .ok scene →
    ∀ passes stop, scene.uncolored.play { settings with color := false } passes stop =
      (scene.play { settings with color := true } passes stop).uncolored

theorem Program.evaluate_colorIsForShow (isPlain : ArePlain (textsIn program.commands))
    (plainFonts : settings.HasPlainFonts lettering) : ColorIsForShow settings lettering program := by
  have alike := Program.evaluate_alike isPlain plainFonts
  constructor
  case outcome =>
    generalize (program.evaluate { settings with color := true } lettering).outcome = colored
      at alike ⊢
    generalize (program.evaluate { settings with color := false } lettering).outcome = plain
      at alike ⊢
    cases alike with
    | @ok scene plain same => exact congrArg Except.ok same.1.symm
    | error failure => rfl
  case composed =>
    exact fun background content => (uncolored_compose settings background content).symm
  case played =>
    intro scene evaluated
    rw [evaluated] at alike
    generalize (program.evaluate { settings with color := false } lettering).outcome = plain at alike
    cases alike with
    | ok same => exact Scene.play_uncolored settings same.2

/-- Large text, rainbow text over it and a background, with and without colours. -/
theorem Program.evaluate_colorIsForShow_rainbow :
    ∃ (program : Program) (scene plain : Scene), ArePlain (textsIn program.commands) ∧
      Settings.HasPlainFonts {} .builtin ∧
      (program.evaluate {} .builtin).outcome = .ok scene ∧
      scene.output =
        "\x1b[38;2;0;255;0m[doom] A\x1b[39m\n\x1b[38;2;0;255;0m_\x1b[39m\n\x1b[38;2;0;255;0m\x1b[39m" ∧
      (program.evaluate { color := false } .builtin).outcome = .ok plain ∧
      plain.timeline = #[.picture "[doom] A\n_\n" "blue" 10 "r"] ∧
      ColorIsForShow {} .builtin program := by
  let zero := Binary64.ofInt 0
  let program : Program :=
    ⟨[.background "blue" none, .draw (.text "A" zero zero 12 "lime") none,
      .rainbow "r" zero zero 1 none], none⟩
  let shown :=
    "\x1b[38;2;0;255;0m[doom] A\x1b[39m\n\x1b[38;2;0;255;0m_\x1b[39m\n\x1b[38;2;0;255;0m\x1b[39m"
  let scene : Scene :=
    { timeline := #[.picture shown "blue" 10 "\x1b[38;2;255;0;0mr\x1b[39m"]
      output := shown
      background := "blue" }
  let plain : Scene :=
    { timeline := #[.picture "[doom] A\n_\n" "blue" 10 "r"]
      output := "[doom] A\n_\n"
      background := "blue" }
  have evaluated : (program.evaluate {} .builtin).outcome = .ok scene := by decide +kernel
  have plainEvaluated : (program.evaluate { color := false } .builtin).outcome = .ok plain := by
    decide +kernel
  have isPlain : ArePlain ["A", "r"] := by
    rw [ArePlain]
    decide
  have plainFonts : Settings.HasPlainFonts {} .builtin :=
    ⟨Lettering.builtin_isPlain _, Lettering.builtin_isPlain _⟩
  exact ⟨program, scene, plain, isPlain, plainFonts, evaluated, rfl, plainEvaluated, rfl,
    Program.evaluate_colorIsForShow isPlain plainFonts⟩

end Twice

end TermScene
