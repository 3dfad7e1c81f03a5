import TermScene.Notice
import TermScene.Text.Numeral

/-!
# Settings

The settings that drawing, evaluation and playback share, and how the environment of a run sets them.
Colours are on if the output is a terminal and the user has not asked for none.
-/

namespace TermScene

/-- The font of large text unless another is chosen. -/
def defaultFont : String := "doom"

/-- The settings of a run. Times are in milliseconds. Text up to `smallSize` is drawn in the small
font. -/
structure Settings where
  color : Bool := true
  font : String := defaultFont
  smallFont : String := defaultFont
  smallSize : Int := 15
  frameInterval : Int := 100
  rainbowStep : Int := 10
  minFrameDelay : Int := 50
  deriving DecidableEq, Repr

abbrev Environment := List (String × String)

/-- The value of a variable; an empty one counts as missing. -/
def Environment.value? (environment : Environment) (name : String) : Option String :=
  (environment.lookup name).filter (· ≠ "")

namespace Settings

/-- The settings that an environment asks for, and a notice if it asks for something that cannot
be. -/
def ofEnvironment (environment : Environment) (terminal : Bool) : Settings × List Notice :=
  let plain : Settings := { color := (environment.value? "NO_COLOR").isNone && terminal }
  let lettered :=
    match environment.value? "CANVASLANG_FONT" with
    | some font => { plain with font, smallFont := font }
    | none => plain
  match environment.value? "CANVASLANG_FRAME_INTERVAL" with
  | none => (lettered, [])
  | some text =>
      match readInteger? text with
      | some interval => ({ lettered with frameInterval := max 0 interval }, [])
      | none => (lettered, [.invalidInterval text])

/-- Changes to settings; what is missing stays as it is. -/
structure Overrides where
  color : Option Bool := none
  font : Option String := none
  smallFont : Option String := none
  smallSize : Option Int := none
  frameInterval : Option Int := none
  rainbowStep : Option Int := none
  minFrameDelay : Option Int := none
  deriving DecidableEq, Repr

def override (settings : Settings) (overrides : Overrides) : Settings :=
  { color := overrides.color.getD settings.color
    font := overrides.font.getD settings.font
    smallFont := overrides.smallFont.getD settings.smallFont
    smallSize := overrides.smallSize.getD settings.smallSize
    frameInterval := overrides.frameInterval.getD settings.frameInterval
    rainbowStep := overrides.rainbowStep.getD settings.rainbowStep
    minFrameDelay := overrides.minFrameDelay.getD settings.minFrameDelay }

end Settings

end TermScene
