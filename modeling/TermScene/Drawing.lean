import TermScene.Binary64.Arithmetic
import TermScene.Lettering
import TermScene.Program
import TermScene.Raster.Disc
import TermScene.Raster.Segment
import TermScene.Settings

/-!
# Drawings as text

Each drawing command gives lines of painted text. What may go wrong is that a shape has no grid or a hue
no integer part, or that the lettering breaks down. An unusable font does not stop the drawing: the text is then drawn
as it is.
-/

namespace TermScene

/-- Why something cannot be drawn or evaluated. -/
inductive DrawFailure where
  | unbounded (cause : Binary64.Unbounded)
  | noMask (cause : MaskFailure)
  | noQuotient (cause : Binary64.NoQuotient)
  | lettering (reason : String)
  deriving DecidableEq, Repr

def DrawFailure.message : DrawFailure → String
  | .unbounded cause => cause.message
  | .noMask cause => cause.message
  | .noQuotient cause => cause.message
  | .lettering reason => reason

/-- Large text in a font, painted, and a notice if the font cannot be used. -/
def drawText (lettering : Lettering) (font text color : String) (enabled : Bool) :
    Except DrawFailure (String × List Notice) :=
  match lettering font text with
  | .drawn lines => .ok (paint .foreground color enabled lines, [])
  | .unusable reason =>
      .ok (paint .foreground color enabled text, [.unusableFont font reason])
  | .broken reason => .error (.lettering reason)

def Settings.fontFor (settings : Settings) (size : Int) : String :=
  if settings.smallSize < size then settings.font else settings.smallFont

def drawMask (mask : Except MaskFailure Mask) (glyph color : String) (enabled : Bool) :
    Except DrawFailure (String × List Notice) :=
  match mask with
  | .ok cells => .ok (cells.text glyph color enabled, [])
  | .error cause => .error (.noMask cause)

namespace Drawing

/-- A drawing as text, and the notices that come with it. -/
def render (settings : Settings) (lettering : Lettering) :
    Drawing → Except DrawFailure (String × List Notice)
  | .circle _ _ radius fill => drawMask (discMask radius) dotGlyph fill settings.color
  | .rect _ _ width height fill => drawMask (rectMask width height) blockGlyph fill settings.color
  | .text content _ _ size color =>
      drawText lettering (settings.fontFor size) content color settings.color
  | .line x1 y1 x2 y2 color =>
      drawMask (segmentMask x1 y1 x2 y2) dotGlyph color settings.color

end Drawing

/-- Content painted over a background, as it is shown. -/
def compose (settings : Settings) (background content : String) : String :=
  paint .background background settings.color content

end TermScene
