import TermScene.Proofs.Scene.Rainbow

/-!
# An evaluation as a run of turns

A successful evaluation is a run: it takes the turns of the program in their order, and each turn acts
on the stage in the way that `Turn.Acts` says, once for all commands. What is carried along the
recursion is that the output at every command is what the drawings before it in its block give.
-/

namespace TermScene

section Own

variable {settings : Settings} {lettering : Lettering} {block : List Command} {output : String}

theorem ownOutput_nil : ownOutput settings lettering [] = .ok "" := rfl

theorem ownOutput_append_draw {drawing : Drawing} {place : Option Location} {text : String}
    {notices : List Notice} (own : ownOutput settings lettering block = .ok output)
    (drawn : drawing.render settings lettering = .ok (text, notices)) :
    ownOutput settings lettering (block ++ [.draw drawing place]) = .ok (output ++ text) := by
  simp only [ownOutput, map_eq_ok_iff, mapM_eq_ok_iff] at own ⊢
  rcases own with ⟨texts, each, rfl⟩
  refine ⟨texts ++ [text], ?_, by simp [String.join_append]⟩
  rw [List.filterMap_append]
  apply List.rel_append each
  simp [Command.drawing?, drawn]

theorem ownOutput_append_of_not_drawing {command : Command}
    (own : ownOutput settings lettering block = .ok output) (draws : command.drawing? = none) :
    ownOutput settings lettering (block ++ [command]) = .ok output := by
  simpa [ownOutput, List.filterMap_append, draws] using own

end Own

section Steps

variable {settings : Settings} {duration : Int}

theorem animationPictures_of_animate {frames : List String} {stage after : Stage} {value : Unit}
    (animated : Evaluating.animate settings frames duration stage = .ok value after) :
    ∃ steps notices, animationPictures settings stage.background frames duration = .ok steps ∧
      after = { stage with timeline := stage.timeline ++ steps, notices } := by
  unfold Evaluating.animate at animated
  by_cases isPlayed : frames ≠ []
  · rw [if_neg (by simpa using isPlayed)] at animated
    cases timed : Timing.ofAnimation duration frames.length settings.minFrameDelay with
    | error cause =>
        simp only [timed] at animated
        exact absurd animated Evaluating.throw_ne_ok
    | ok timing =>
        simp only [timed, Evaluating.bind_eq_ok_iff, Evaluating.get_eq_ok_iff,
          Evaluating.record_eq_ok_iff] at animated
        rcases animated with ⟨_, _, ⟨rfl, rfl⟩, rfl⟩
        refine ⟨_, _, ?_, rfl⟩
        rw [animationPictures, dif_pos isPlayed, timed]
        apply congrArg Except.ok
        apply List.map_congr_left
        intro index _
        have inside := Nat.mod_lt index (List.length_pos_iff.mpr isPlayed)
        simp [List.getElem?_eq_getElem inside]
  · rw [not_not] at isPlayed
    subst isPlayed
    simp only [List.isEmpty_nil, if_true, Evaluating.modify_eq_ok_iff] at animated
    exact ⟨[], _, rfl, by simp [← animated]; rfl⟩

end Steps

variable {settings : Settings} {lettering : Lettering}

/-- What a turn does to the stage: it sets the background, gives a variable its value, registers a frame
and adds its steps to the timeline, each if it does so at all, and leaves the rest. -/
structure Turn.Acts (settings : Settings) (lettering : Lettering) (turn : Turn)
    (stage next : Stage) : Prop where
  background : next.background = turn.command.setColor?.getD stage.background
  bindings : next.bindings =
    match turn.command.definition? with
    | some (name, value) => stage.bindings.define name value
    | none => stage.bindings
  frames : ∃ texts,
    turn.command.frameBody?.toList.mapM (ownOutput settings lettering) = .ok texts ∧
      next.frames.toList = stage.frames.toList ++ texts
  timeline : ∃ steps, turn.steps settings lettering stage.background = .ok steps ∧
    next.timeline.toList = stage.timeline.toList ++ steps

/-- Turns that act on the stage one after another. -/
inductive Runs (settings : Settings) (lettering : Lettering) : List Turn → Stage → Stage → Prop where
  | none {stage : Stage} : Runs settings lettering [] stage stage
  | some {turn : Turn} {later : List Turn} {stage next after : Stage}
      (acts : turn.Acts settings lettering stage next)
      (more : Runs settings lettering later next after) :
      Runs settings lettering (turn :: later) stage after

namespace Runs

theorem single {turn : Turn} {stage next : Stage} (acts : turn.Acts settings lettering stage next) :
    Runs settings lettering [turn] stage next :=
  .some acts .none

theorem append {first later : List Turn} {stage between after : Stage}
    (runs : Runs settings lettering first stage between)
    (more : Runs settings lettering later between after) :
    Runs settings lettering (first ++ later) stage after := by
  induction runs with
  | none => exact more
  | some acts _ ih => exact .some acts (ih more)

end Runs

namespace Evaluating

mutual

/-- A command that is evaluated after the output of the commands before it takes its turns, and the
output that follows it is that of the commands up to it. -/
theorem runs_of_command : (subject : Command) → (before : List Command) →
    {output next : String} → {stage after : Stage} →
    ownOutput settings lettering before = .ok output →
    command settings lettering subject output stage = .ok next after →
      Runs settings lettering (turnsAt before subject) stage after ∧
        ownOutput settings lettering (before ++ [subject]) = .ok next
  | .background color place, before, output, next, stage, after, own, evaluated => by
      simp only [command, bind_eq_ok_iff, modify_eq_ok_iff, pure_eq_ok_iff] at evaluated
      rcases evaluated with ⟨_, _, rfl, rfl, rfl⟩
      refine ⟨.single ⟨rfl, rfl, ⟨[], rfl, by simp⟩, ⟨[], rfl, by simp⟩⟩, ?_⟩
      exact ownOutput_append_of_not_drawing own rfl
  | .draw drawing place, before, output, next, stage, after, own, evaluated => by
      simp only [command, bind_eq_ok_iff, drawn_eq_ok_iff, pure_eq_ok_iff] at evaluated
      rcases evaluated with ⟨text, _, ⟨notices, drawn, rfl⟩, rfl, rfl⟩
      refine ⟨.single ⟨rfl, rfl, ⟨[], rfl, by simp⟩, ⟨[], rfl, by simp⟩⟩, ?_⟩
      exact ownOutput_append_draw own drawn
  | .define name value place, before, output, next, stage, after, own, evaluated => by
      simp only [command, bind_eq_ok_iff, modify_eq_ok_iff, pure_eq_ok_iff] at evaluated
      rcases evaluated with ⟨_, _, rfl, rfl, rfl⟩
      refine ⟨.single ⟨rfl, rfl, ⟨[], rfl, by simp⟩, ⟨[], rfl, by simp⟩⟩, ?_⟩
      exact ownOutput_append_of_not_drawing own rfl
  | .rainbow text x y duration place, before, output, next, stage, after, own, evaluated => by
      rcases Hue.exists_paint text settings.color with ⟨paint, isPaint⟩
      rw [command_rainbow isPaint, EStateM.Result.ok.injEq] at evaluated
      rcases evaluated with ⟨rfl, rfl⟩
      have steps : Turn.steps settings lettering stage.background
          ⟨before, .rainbow text x y duration place⟩ =
            .ok ((overlaysFor paint duration).map
              (.picture output stage.background settings.rainbowStep)) := by
        simp [Turn.steps, own, plainOverlays_eq isPaint, bind, Except.bind, pure, Except.pure]
      refine ⟨.single ⟨rfl, rfl, ⟨[], rfl, by simp [Stage.withOverlays]⟩,
        ⟨_, steps, by simp [Stage.withOverlays]⟩⟩, ?_⟩
      exact ownOutput_append_of_not_drawing own rfl
  | .wait duration place, before, output, next, stage, after, own, evaluated => by
      simp only [command, bind_eq_ok_iff, record_eq_ok_iff, pure_eq_ok_iff] at evaluated
      rcases evaluated with ⟨_, _, rfl, rfl, rfl⟩
      refine ⟨.single ⟨rfl, rfl, ⟨[], rfl, by simp⟩, ⟨_, rfl, by simp⟩⟩, ?_⟩
      exact ownOutput_append_of_not_drawing own rfl
  | .frame body place, before, output, next, stage, after, own, evaluated => by
      simp only [command, bind_eq_ok_iff, modify_eq_ok_iff, pure_eq_ok_iff] at evaluated
      rcases evaluated with ⟨frame, inside, drawn, _, _, rfl, rfl, rfl⟩
      rcases runs_of_commands body [] ownOutput_nil drawn with ⟨runs, ownBody⟩
      refine ⟨runs.append (.single ⟨rfl, rfl, ⟨[frame], ?_, by simp⟩, ⟨[], rfl, by simp⟩⟩), ?_⟩
      · exact mapM_eq_ok_iff.mpr (.cons ownBody .nil)
      · exact ownOutput_append_of_not_drawing own rfl
  | .animate children duration place, before, output, next, stage, after, own, evaluated => by
      simp only [command, bind_eq_ok_iff, pure_eq_ok_iff] at evaluated
      rcases evaluated with ⟨drawn, inside, played, _, _, animated, rfl, rfl⟩
      rcases runs_of_frames children played with ⟨runs, ownFrames⟩
      rcases animationPictures_of_animate animated with ⟨steps, notices, pictures, rfl⟩
      refine ⟨runs.append (.single ⟨rfl, rfl, ⟨[], rfl, by simp⟩, ⟨steps, ?_, by simp⟩⟩), ?_⟩
      · simp only [Turn.steps, ownFrames]
        exact pictures
      · exact ownOutput_append_of_not_drawing own rfl

theorem runs_of_commands : (later before : List Command) →
    {output next : String} → {stage after : Stage} →
    ownOutput settings lettering before = .ok output →
    commands settings lettering later output stage = .ok next after →
      Runs settings lettering (turnsIn before later) stage after ∧
        ownOutput settings lettering (before ++ later) = .ok next
  | [], before, output, next, stage, after, own, evaluated => by
      simp only [commands, pure_eq_ok_iff] at evaluated
      rcases evaluated with ⟨rfl, rfl⟩
      exact ⟨.none, by simpa using own⟩
  | first :: later, before, output, next, stage, after, own, evaluated => by
      simp only [commands, bind_eq_ok_iff] at evaluated
      rcases evaluated with ⟨between, inside, isFirst, isLater⟩
      rcases runs_of_command first before own isFirst with ⟨runs, ownFirst⟩
      rcases runs_of_commands later _ ownFirst isLater with ⟨more, ownLater⟩
      exact ⟨runs.append more, by simpa using ownLater⟩

theorem runs_of_frames : (children : List Command) →
    {outputs : List String} → {stage after : Stage} →
    frames settings lettering children stage = .ok outputs after →
      Runs settings lettering (turnsInFrames children) stage after ∧
        (children.filterMap Command.frameBody?).mapM (ownOutput settings lettering) = .ok outputs
  | [], outputs, stage, after, evaluated => by
      simp only [frames, pure_eq_ok_iff] at evaluated
      rcases evaluated with ⟨rfl, rfl⟩
      exact ⟨.none, rfl⟩
  | .frame body place :: later, outputs, stage, after, evaluated => by
      simp only [frames, bind_eq_ok_iff, pure_eq_ok_iff] at evaluated
      rcases evaluated with ⟨frame, between, drawn, others, _, played, rfl, rfl⟩
      rcases runs_of_commands body [] ownOutput_nil drawn with ⟨runs, ownBody⟩
      rcases runs_of_frames later played with ⟨more, ownLater⟩
      rw [mapM_eq_ok_iff] at ownLater
      exact ⟨runs.append more, mapM_eq_ok_iff.mpr (.cons ownBody ownLater)⟩
  | .background .. :: later, outputs, stage, after, evaluated
  | .draw .. :: later, outputs, stage, after, evaluated
  | .define .. :: later, outputs, stage, after, evaluated
  | .rainbow .. :: later, outputs, stage, after, evaluated
  | .wait .. :: later, outputs, stage, after, evaluated
  | .animate .. :: later, outputs, stage, after, evaluated => runs_of_frames later evaluated

end

end Evaluating

/-- A successful evaluation is a run of the program's turns, and what it gives is the stage that the run
ends in with the program's own output. -/
theorem Program.runs_of_evaluate {program : Program} {scene : Scene}
    (evaluated : (program.evaluate settings lettering).outcome = .ok scene) :
    ∃ output after, ownOutput settings lettering program.commands = .ok output ∧
      Runs settings lettering program.turns {} after ∧
        scene = { after.scene with output } := by
  unfold evaluate at evaluated
  cases run : (Evaluating.commands settings lettering program.commands "").run {} with
  | error failure stage => simp [run] at evaluated
  | ok output after =>
      simp only [run, Except.ok.injEq] at evaluated
      rcases Evaluating.runs_of_commands program.commands [] ownOutput_nil run with ⟨runs, own⟩
      exact ⟨output, after, own, runs, evaluated.symm⟩

end TermScene
