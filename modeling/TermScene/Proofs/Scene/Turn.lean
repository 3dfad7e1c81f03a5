import TermScene.Scene.Evaluation

/-!
# Turns of an evaluation

An evaluation comes to the commands of a program one after another. A *turn* is one command that is
come to, with the commands before it in its own block. The turn of a frame and of an animation comes
after the turns of the commands inside. A frame that stands directly in an animation has no turn of its
own, although the commands in it have theirs, and any other command there has none at all.

What a turn gives is said here by the command and its own block alone, without an output or a stage that
is handed on: the drawings of a block in a row are its output, and the steps of a turn depend on that
and on the background.
-/

namespace TermScene

namespace Command

def drawing? : Command → Option Drawing
  | .draw drawing _ => some drawing
  | _ => none

def setColor? : Command → Option String
  | .background color _ => some color
  | _ => none

def definition? : Command → Option (String × Binary64)
  | .define name value _ => some (name, value)
  | _ => none

def frameBody? : Command → Option (List Command)
  | .frame body _ => some body
  | _ => none

end Command

/-- A command that is come to, and the commands before it in its block. -/
structure Turn where
  before : List Command
  command : Command

mutual

/-- The turns of a command and those inside it, in their order. -/
def turnsAt (before : List Command) : Command → List Turn
  | .frame body place => turnsIn [] body ++ [⟨before, .frame body place⟩]
  | .animate children duration place =>
      turnsInFrames children ++ [⟨before, .animate children duration place⟩]
  | command => [⟨before, command⟩]

/-- The turns of the commands that come after others in a block. -/
def turnsIn (before : List Command) : List Command → List Turn
  | [] => []
  | first :: later => turnsAt before first ++ turnsIn (before ++ [first]) later

/-- The turns inside the frames among the children of an animation. -/
def turnsInFrames : List Command → List Turn
  | [] => []
  | .frame body _ :: later => turnsIn [] body ++ turnsInFrames later
  | _ :: later => turnsInFrames later

end

def Program.turns (program : Program) : List Turn := turnsIn [] program.commands

/-- The background after some turns: the colour that the last of them sets, if any does. -/
def backgroundAfter (background : String) (turns : List Turn) : String :=
  (turns.filterMap fun turn => turn.command.setColor?).getLast?.getD background

section Drawn

variable (settings : Settings) (lettering : Lettering)

/-- What the drawings that stand directly in a block give in a row. -/
def ownOutput (block : List Command) : Except DrawFailure String :=
  ((block.filterMap Command.drawing?).mapM fun (drawing : Drawing) =>
    (drawing.render settings lettering).map Prod.fst).map String.join

/-- Rainbow text for each hue step of a duration, none of them looked up. -/
def plainOverlays (text : String) (duration : Int) : Except DrawFailure (List String) :=
  (List.range duration.toNat).mapM fun (offset : Nat) =>
    (Hue.rainbow text offset settings.color).mapError .unbounded

/-- The steps of an animation: its frames in turn, as often as its timing says, if there are any. -/
def animationPictures (background : String) (frames : List String) (duration : Int) :
    Except DrawFailure (List Step) :=
  if isPlayed : frames ≠ [] then do
    let timing ← (Timing.ofAnimation duration frames.length settings.minFrameDelay).mapError
      .noQuotient
    return (List.range timing.steps.toNat).map fun index =>
      have inside := Nat.mod_lt index (List.length_pos_iff.mpr isPlayed)
      .picture (frames.get ⟨index % frames.length, inside⟩) background timing.delay ""
  else .ok []

/-- The steps that a turn adds to the timeline, given the background at its time. -/
def Turn.steps (background : String) (turn : Turn) : Except DrawFailure (List Step) :=
  match turn.command with
  | .wait duration _ => .ok [.pause duration]
  | .rainbow text _ _ duration _ => do
      let content ← ownOutput settings lettering turn.before
      let overlays ← plainOverlays settings text duration
      return overlays.map (.picture content background settings.rainbowStep)
  | .animate children duration _ => do
      let frames ← (children.filterMap Command.frameBody?).mapM (ownOutput settings lettering)
      animationPictures settings background frames duration
  | _ => .ok []

end Drawn

end TermScene
