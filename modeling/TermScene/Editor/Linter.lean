import TermScene.Editor.Lint

/-!
# Checking a document again

A `Linter` checks one document as often as it is asked to. It gathers the problems one by one, in the
order in which a walk through the commands comes to them, and keeps what it found last. Every check
starts from no problems.
-/

namespace TermScene

namespace Editor

/-- Something that gathers problems behind those that were gathered before. -/
abbrev Gathering := StateM (List Problem)

namespace Gathering

def add (found : List Problem) : Gathering Unit := modify (· ++ found)

/-- Gathers the warnings about a command itself, given whether it stands directly in an animation. -/
def command (inAnimation : Bool) (command : Command) : Gathering Unit := do
  if inAnimation && !command.isFrame then
    add (warning command ignoredMessage)
  if let some color := command.color? then
    if !Color.isKnown color then
      add (warning command (unknownColorMessage color))

mutual

/-- Gathers the warnings about the commands inside a command. -/
def inside : Command → Gathering Unit
  | .frame body _ => block false body
  | .animate children _ _ => block true children
  | _ => return

/-- Gathers the warnings about commands in a row and those inside them. -/
def block (inAnimation : Bool) : List Command → Gathering Unit
  | [] => return
  | first :: later => do
      command inAnimation first
      inside first
      block inAnimation later

end

end Gathering

/-- Something that checks a document over and over. -/
structure Linter where
  source : String
  uri : String
  found : List Problem := []

namespace Linter

/-- The problems in the document, with the notices of reading it, and the linter after the check. -/
def check (linter : Linter) : Except ReadFailure (List Problem × List Notice) × Linter :=
  let cleared := { linter with found := [] }
  let (found, outcome) :=
    match readDocument linter.source linter.uri with
    | .ok document =>
        let ((), found) := (Gathering.block false document.read.program.commands).run cleared.found
        (found, .ok (found, document.read.notices))
    | .error (.source error) =>
        let ((), found) := (Gathering.add [problemOfError error linter.uri]).run cleared.found
        (found, .ok (found, []))
    | .error failure => (cleared.found, .error failure)
  (outcome, { cleared with found })

end Linter

end Editor

end TermScene
