import TermScene.Program

/-!
# Snippets and help for commands

What an editor can say about a command: how it is written, what it does, and a snippet to fill in. A
snippet has numbered holes with texts that stand in them at first, and may say where the cursor goes
in the end.
-/

namespace TermScene

/-- A piece of a snippet. -/
inductive SnippetPiece where
  | plain (text : String)
  | hole (number : Nat) (preset : String)
  | finish
  deriving DecidableEq, Repr

namespace SnippetPiece

def render : SnippetPiece → String
  | .plain text => text
  | .hole number preset => "$\x7b" ++ toString number ++ ":" ++ preset ++ "\x7d"
  | .finish => "$0"

end SnippetPiece

namespace Keyword

def usage : Keyword → String
  | .background => "background \"<color>\";"
  | .circle => "circle at(x, y) radius r fill \"<color>\";"
  | .rect => "rect at(x, y) width w height h fill \"<color>\";"
  | .text => "text \"<text>\" at(x, y) size n color \"<color>\";"
  | .line => "line from(x1, y1) to(x2, y2) color \"<color>\";"
  | .animate => "animate \x7b frame \x7b ... \x7d ... \x7d for ms;"
  | .var => "var name = value;"
  | .rainbow => "rainbow \"<text>\" at(x, y) duration steps;"
  | .wait => "wait ms;"
  | .frame => "frame \x7b ... \x7d"

def description : Keyword → String
  | .background => "Set the background color of the scene"
  | .circle => "Draw a filled circle of dots"
  | .rect => "Draw a filled rectangle of blocks"
  | .text => "Draw large figlet text; sizes above 15 use the large font"
  | .line => "Draw a straight line between two points"
  | .animate => "Play the frames inside the block, spreading them over ms milliseconds"
  | .var => "Declare a numeric variable"
  | .rainbow => "Show text with a moving rainbow, one hue shift per step"
  | .wait => "Pause for ms milliseconds"
  | .frame => "Render the block into its own frame; frames loop once the program ends"

/-- Two holes for the coordinates of a point, in brackets. -/
def pointHoles (number : Nat) (preset : String) : List SnippetPiece :=
  [.plain "(", .hole number preset, .plain ", ", .hole (number + 1) preset, .plain ")"]

def snippet : Keyword → List SnippetPiece
  | .background => [.plain "background \"", .hole 1 "black", .plain "\";"]
  | .circle =>
      .plain "circle at" :: pointHoles 1 "0"
        ++ [.plain " radius ", .hole 3 "5", .plain " fill \"", .hole 4 "red", .plain "\";"]
  | .rect =>
      .plain "rect at" :: pointHoles 1 "0"
        ++ [.plain " width ", .hole 3 "10", .plain " height ", .hole 4 "5", .plain " fill \"",
          .hole 5 "blue", .plain "\";"]
  | .text =>
      [.plain "text \"", .hole 1 "Hello", .plain "\" at"] ++ pointHoles 2 "0"
        ++ [.plain " size ", .hole 4 "20", .plain " color \"", .hole 5 "white", .plain "\";"]
  | .line =>
      .plain "line from" :: pointHoles 1 "0" ++ .plain " to" :: pointHoles 3 "10"
        ++ [.plain " color \"", .hole 5 "green", .plain "\";"]
  | .animate =>
      [.plain "animate \x7b\n\tframe \x7b\n\t\t", .finish, .plain "\n\t\x7d\n\x7d for ",
        .hole 1 "1000", .plain ";"]
  | .var => [.plain "var ", .hole 1 "name", .plain " = ", .hole 2 "0", .plain ";"]
  | .rainbow =>
      [.plain "rainbow \"", .hole 1 "Hello", .plain "\" at"] ++ pointHoles 2 "0"
        ++ [.plain " duration ", .hole 4 "100", .plain ";"]
  | .wait => [.plain "wait ", .hole 1 "500", .plain ";"]
  | .frame => [.plain "frame \x7b\n\t", .finish, .plain "\n\x7d"]

def snippetText (keyword : Keyword) : String := String.join (keyword.snippet.map (·.render))

end Keyword

end TermScene
