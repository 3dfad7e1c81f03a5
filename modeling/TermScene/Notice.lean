import TermScene.Text.Quoted

/-!
# Notices

What goes on beside the results: things that do not stop the work but that its user should know.
-/

namespace TermScene

/-- Something to note: tokens after the end of a program, a font that cannot be used, an animation
without frames, or a frame interval that is no number. -/
inductive Notice where
  | trailingTokens (count : Nat)
  | unusableFont (font reason : String)
  | emptyAnimation
  | invalidInterval (text : String)
  deriving DecidableEq, Repr

namespace Notice

/-- The part of the program that a notice comes from. -/
def channel : Notice → String
  | .trailingTokens _ => "canvaslang.compiler.parser"
  | .unusableFont _ _ => "canvaslang.render.shapes"
  | .emptyAnimation => "canvaslang.runtime.interpreter"
  | .invalidInterval _ => "canvaslang.config"

def message : Notice → String
  | .trailingTokens count =>
      "Ignoring " ++ toString count ++ " token(s) after the closing brace of the canvas"
  | .unusableFont font reason =>
      "Error rendering ASCII text with font " ++ quoted font ++ ": " ++ reason
  | .emptyAnimation => "animate block without frame children has nothing to play"
  | .invalidInterval text => "Ignoring invalid CANVASLANG_FRAME_INTERVAL=" ++ quoted text

end Notice

end TermScene
