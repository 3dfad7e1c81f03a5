import TermScene.Color.Hue
import TermScene.Drawing
import TermScene.Scene
import TermScene.Scene.Timing

/-!
# Evaluation

A program is evaluated once, from left to right. Every block of commands has an output of its own:
drawings are appended to it, and the steps recorded in the block show it as it is at that moment.
The other effects — the background, variables, frames and the timeline — are shared by all blocks and
kept in a `Stage`, which also stands for how far a failed evaluation came.

An `Evaluator` takes one program after another. It hands the output of a block from command to command
in a buffer, which it never clears.
-/

namespace TermScene

/-- The shared effects of an evaluation so far. The output is set when all commands are evaluated. -/
structure Stage where
  background : String := "black"
  bindings : Variables := []
  frames : Array String := #[]
  output : String := ""
  timeline : Array Step := #[]
  notices : Array Notice := #[]

def Stage.scene (stage : Stage) : Scene :=
  { timeline := stage.timeline
    frames := stage.frames
    output := stage.output
    background := stage.background
    bindings := stage.bindings }

/-- A part of an evaluation: it changes the stage, and fails if something cannot be drawn. -/
abbrev Evaluating := EStateM DrawFailure Stage

namespace Evaluating

/-- What a drawing gives, its notices being recorded. -/
def drawn (result : Except DrawFailure (String × List Notice)) : Evaluating String := do
  match result with
  | .ok (text, notices) =>
      modify fun stage => { stage with notices := stage.notices ++ notices }
      return text
  | .error failure => throw failure

def record (steps : List Step) : Evaluating Unit :=
  modify fun stage => { stage with timeline := stage.timeline ++ steps }

def hueCycle : Nat := 360

/-- Overlays of one rainbow text, each with its hue, in the order in which they were drawn. -/
abbrev Overlays := List (Nat × String)

/-- The overlay for a hue, and those drawn up to then. An overlay that has been drawn is not drawn again. -/
def overlay (settings : Settings) (text : String) (hue : Nat) (drawn : Overlays) :
    Except DrawFailure (String × Overlays) :=
  match drawn.lookup hue with
  | some known => .ok (known, drawn)
  | none => do
      let new ← (Hue.rainbow text hue settings.color).mapError .unbounded
      return (new, drawn ++ [(hue, new)])

/-- Records one step of rainbow text over an output, and gives the overlays drawn up to then. -/
def rainbowStep (settings : Settings) (text output : String) (drawn : Overlays) (offset : Nat) :
    Evaluating Overlays := do
  match overlay settings text (offset % hueCycle) drawn with
  | .error failure => throw failure
  | .ok (shown, drawn) =>
      record [.picture output (← get).background settings.rainbowStep shown]
      return drawn

/-- Records the steps of rainbow text over an output, one for each hue step of the duration, and gives the
overlays that were drawn for them. -/
def rainbow (settings : Settings) (text output : String) (duration : Int) : Evaluating Overlays :=
  (List.range duration.toNat).foldlM (rainbowStep settings text output) []

/-- The steps of an animation: its frames in turn, as many times as its timing says. -/
def animationSteps (background : String) (frames : List String) (timing : Timing) : List Step :=
  (List.range timing.steps.toNat).map fun step =>
    .picture ((frames[step % frames.length]?).getD "") background timing.delay ""

def animate (settings : Settings) (frames : List String) (duration : Int) : Evaluating Unit := do
  if frames.isEmpty then
    modify fun stage => { stage with notices := stage.notices.push .emptyAnimation }
  else
    match Timing.ofAnimation duration frames.length settings.minFrameDelay with
    | .error cause => throw (.noQuotient cause)
    | .ok timing => record (animationSteps (← get).background frames timing)

mutual

/-- Evaluates a command after a given output, and gives the output that follows it. -/
def command (settings : Settings) (lettering : Lettering) :
    Command → String → Evaluating String
  | .background color _, output => do
      modify fun stage => { stage with background := color }
      return output
  | .draw drawing _, output => do
      let text ← drawn (drawing.render settings lettering)
      return output ++ text
  | .define name value _, output => do
      modify fun stage => { stage with bindings := stage.bindings.define name value }
      return output
  | .rainbow text _ _ duration _, output => do
      let _ ← rainbow settings text output duration
      return output
  | .wait duration _, output => do
      record [.pause duration]
      return output
  | .frame body _, output => do
      let frame ← commands settings lettering body ""
      modify fun stage => { stage with frames := stage.frames.push frame }
      return output
  | .animate children duration _, output => do
      animate settings (← frames settings lettering children) duration
      return output

/-- Evaluates commands in order after a given output, and gives the output that follows them. -/
def commands (settings : Settings) (lettering : Lettering) :
    List Command → String → Evaluating String
  | [], output => return output
  | first :: later, output => do
      let next ← command settings lettering first output
      commands settings lettering later next

/-- Evaluates the frames among the children of an animation, and gives what each of them draws. The
other children are passed over. -/
def frames (settings : Settings) (lettering : Lettering) :
    List Command → Evaluating (List String)
  | [] => return []
  | .frame body _ :: later => do
      let frame ← commands settings lettering body ""
      let others ← frames settings lettering later
      return frame :: others
  | _ :: later => frames settings lettering later

end

end Evaluating

/-- What the evaluation of a program came to: the scene, or why there is none, and the stage in the
end. -/
structure Evaluation where
  outcome : Except DrawFailure Scene
  stage : Stage

namespace Program

def evaluate (settings : Settings) (lettering : Lettering) (program : Program) : Evaluation :=
  match (Evaluating.commands settings lettering program.commands "").run {} with
  | .ok output stage =>
      let stage := { stage with output }
      ⟨.ok stage.scene, stage⟩
  | .error failure stage => ⟨.error failure, stage⟩

end Program

/-- What is kept between the evaluations of one program and the next: the stage of the last one, and a
buffer with the output after which the command come to last was evaluated. -/
structure Kept where
  stage : Stage := {}
  buffer : String := ""

/-- A part of an evaluation with a buffer. -/
abbrev Buffering := EStateM DrawFailure Kept

namespace Buffering

/-- A part of an evaluation that has nothing to do with the buffer. -/
def onStage {α : Type} (part : Evaluating α) : Buffering α := fun kept =>
  match part kept.stage with
  | .ok value stage => .ok value { kept with stage }
  | .error failure stage => .error failure { kept with stage }

mutual

/-- Evaluates a command after the output in the buffer, and gives the output that follows it. A frame
and an animation read the buffer before the commands inside them are come to. -/
def visit (settings : Settings) (lettering : Lettering) : Command → Buffering String
  | .frame body _ => do
      let output := (← get).buffer
      let frame ← block settings lettering body ""
      onStage (modify fun stage => { stage with frames := stage.frames.push frame })
      return output
  | .animate children duration _ => do
      let output := (← get).buffer
      let pictures ← frames settings lettering children
      onStage (Evaluating.animate settings pictures duration)
      return output
  | command => do
      onStage (Evaluating.command settings lettering command (← get).buffer)

/-- Evaluates commands in order, each after the output of those before it. -/
def block (settings : Settings) (lettering : Lettering) : List Command → String → Buffering String
  | [], output => return output
  | first :: later, output => do
      modify fun kept => { kept with buffer := output }
      let next ← visit settings lettering first
      block settings lettering later next

/-- Evaluates the frames among the children of an animation. -/
def frames (settings : Settings) (lettering : Lettering) : List Command → Buffering (List String)
  | [] => return []
  | .frame body _ :: later => do
      let frame ← block settings lettering body ""
      let others ← frames settings lettering later
      return frame :: others
  | _ :: later => frames settings lettering later

end

end Buffering

/-- Something that evaluates one program after another. -/
structure Evaluator extends Kept where
  settings : Settings
  lettering : Lettering

namespace Evaluator

/-- The outcome of an evaluation that has ended, and the evaluator after it. -/
def ended (settings : Settings) (lettering : Lettering) :
    EStateM.Result DrawFailure Kept String → Except DrawFailure Scene × Evaluator
  | .ok output kept =>
      let stage := { kept.stage with output }
      (.ok stage.scene, { stage, buffer := kept.buffer, settings, lettering })
  | .error failure kept => (.error failure, { kept with settings, lettering })

/-- Evaluates a program from a fresh stage. The buffer is left as the evaluation before left it. -/
def evaluate (evaluator : Evaluator) (program : Program) :
    Except DrawFailure Scene × Evaluator :=
  ended evaluator.settings evaluator.lettering <|
    Buffering.block evaluator.settings evaluator.lettering program.commands ""
      { evaluator.toKept with stage := {} }

end Evaluator

end TermScene
