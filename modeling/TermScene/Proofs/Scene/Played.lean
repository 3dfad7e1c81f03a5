import TermScene.Scene.Evaluation

/-!
# What an animation plays

Of the children of an animation only its frames are evaluated. Everything else that stands directly in
one, with all that is inside it, can be left out or replaced: the evaluation is the same, its failures
and its notices included.
-/

namespace TermScene

mutual

/-- A command without the children of animations that are no frames, at any depth. -/
def Command.played : Command → Command
  | .frame body place => .frame (playedIn body) place
  | .animate children duration place => .animate (playedFrames children) duration place
  | command => command

def playedIn : List Command → List Command
  | [] => []
  | first :: later => first.played :: playedIn later

def playedFrames : List Command → List Command
  | [] => []
  | .frame body place :: later => .frame (playedIn body) place :: playedFrames later
  | _ :: later => playedFrames later

end

/-- A program without the children of animations that are no frames. -/
def Program.played (program : Program) : Program :=
  { program with commands := playedIn program.commands }

namespace Evaluating

variable (settings : Settings) (lettering : Lettering)

mutual

theorem command_played : (subject : Command) → (output : String) →
    command settings lettering subject.played output = command settings lettering subject output
  | .frame body place, output => by
      simp only [Command.played, command, commands_playedIn body]
  | .animate children duration place, output => by
      simp only [Command.played, command, frames_playedFrames children]
  | .background .., output | .draw .., output | .define .., output | .rainbow .., output
  | .wait .., output => rfl

theorem commands_playedIn : (block : List Command) → (output : String) →
    commands settings lettering (playedIn block) output = commands settings lettering block output
  | [], output => rfl
  | first :: later, output => by
      simp only [playedIn, commands, command_played first, commands_playedIn later]

theorem frames_playedFrames : (children : List Command) →
    frames settings lettering (playedFrames children) = frames settings lettering children
  | [] => rfl
  | .frame body place :: later => by
      simp only [playedFrames, frames, commands_playedIn body, frames_playedFrames later]
  | .background .. :: later | .draw .. :: later | .define .. :: later | .rainbow .. :: later
  | .wait .. :: later | .animate .. :: later => frames_playedFrames later

end

end Evaluating

theorem Program.evaluate_played (program : Program) (settings : Settings) (lettering : Lettering) :
    program.played.evaluate settings lettering = program.evaluate settings lettering := by
  simp only [evaluate, played, Evaluating.commands_playedIn]

end TermScene
