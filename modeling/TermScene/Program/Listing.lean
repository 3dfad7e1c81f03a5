import TermScene.Binary64.Shortest
import TermScene.Program
import TermScene.Text.Quoted

/-!
# Programs as trees

A program is listed with one line for each part of a command, the parts indented below the name of the
command, and the commands of a block between brackets.
-/

namespace TermScene

def Drawing.kindName : Drawing → String
  | .circle .. => "Circle"
  | .rect .. => "Rect"
  | .text .. => "Text"
  | .line .. => "Line"

def Command.kindName : Command → String
  | .background .. => "Background"
  | .draw drawing _ => drawing.kindName
  | .define .. => "Variable"
  | .rainbow .. => "Rainbow"
  | .wait .. => "Wait"
  | .frame .. => "Frame"
  | .animate .. => "Animate"

def Program.kindName : String := "Canvas"

namespace Listing

def line (depth : Nat) (content : String) : String :=
  String.ofList (List.replicate (2 * depth) ' ') ++ content

def part (depth : Nat) (name value : String) : String := line (depth + 1) (name ++ ": " ++ value)

def drawingParts (depth : Nat) : Drawing → List String
  | .circle x y radius fill =>
      [part depth "x" x.text, part depth "y" y.text, part depth "radius" radius.text,
        part depth "fill" (quoted fill)]
  | .rect x y width height fill =>
      [part depth "x" x.text, part depth "y" y.text, part depth "width" width.text,
        part depth "height" height.text, part depth "fill" (quoted fill)]
  | .text content x y size color =>
      [part depth "text" (quoted content), part depth "x" x.text, part depth "y" y.text,
        part depth "size" (toString size), part depth "color" (quoted color)]
  | .line x1 y1 x2 y2 color =>
      [part depth "x1" x1.text, part depth "y1" y1.text, part depth "x2" x2.text,
        part depth "y2" y2.text, part depth "color" (quoted color)]

/-- A block of commands, whose lines are given, as a named part. -/
def block (depth : Nat) (name : String) (lines : List String) : List String :=
  match lines with
  | [] => [part depth name "()"]
  | lines => part depth name "[" :: lines ++ [line (depth + 1) "]"]

mutual

def command (depth : Nat) : Command → List String
  | .background color _ => [line depth "Background:", part depth "color" (quoted color)]
  | .draw drawing _ => line depth (drawing.kindName ++ ":") :: drawingParts depth drawing
  | .define name value _ =>
      [line depth "Variable:", part depth "name" (quoted name), part depth "value" value.text]
  | .rainbow content x y duration _ =>
      [line depth "Rainbow:", part depth "text" (quoted content), part depth "x" x.text,
        part depth "y" y.text, part depth "duration" (toString duration)]
  | .wait duration _ => [line depth "Wait:", part depth "duration" (toString duration)]
  | .frame commands' _ =>
      line depth "Frame:" :: block depth "commands" (commands (depth + 2) commands')
  | .animate children duration _ =>
      line depth "Animate:" :: block depth "frames" (commands (depth + 2) children)
        ++ [part depth "duration" (toString duration)]

def commands (depth : Nat) : List Command → List String
  | [] => []
  | first :: later => command depth first ++ commands depth later

end

def program (program : Program) : List String :=
  line 0 (Program.kindName ++ ":") :: block 0 "commands" (commands 2 program.commands)

end Listing

end TermScene
