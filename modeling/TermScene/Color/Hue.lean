import TermScene.Binary64.Arithmetic
import TermScene.Color.Paint
import TermScene.Text.Quoted

/-!
# Hues

Colours by hue, saturation and lightness, and text whose hue turns from character to character. The
computation is in doubles throughout; every step rounds.
-/

namespace TermScene

namespace Hue

open Binary64

def third : Binary64 := Binary64.round (1 / 3)

def sixth : Binary64 := Binary64.round (1 / 6)

def twoThirds : Binary64 := Binary64.round (2 / 3)

def half : Binary64 := Binary64.round (1 / 2)

/-- One colour channel at a hue in turns, between its least and its greatest value. It rises over the
first sixth of the turn, stays, and falls from one half to two thirds. -/
def channel (least greatest turn : Binary64) : Binary64 :=
  let hue := turn.modNat 1
  if hue.lt sixth then least + (greatest - least) * hue * ofInt 6
  else if hue.lt half then greatest
  else if hue.lt twoThirds then least + (greatest - least) * (twoThirds - hue) * ofInt 6
  else least

def channels (turn lightness saturation : Binary64) : Binary64 × Binary64 × Binary64 :=
  if saturation.equals (ofInt 0) then (lightness, lightness, lightness)
  else
    let greatest :=
      if lightness.le half then lightness * (ofInt 1 + saturation)
      else lightness + saturation - lightness * saturation
    let least := ofInt 2 * lightness - greatest
    (channel least greatest (turn + third), channel least greatest turn,
      channel least greatest (turn - third))

/-- An integer as at least two hexadecimal digits, its sign counting as one. -/
def hexPair (value : Int) : String :=
  if value < 0 then String.ofList ('-' :: hexDigits 1 value.natAbs)
  else String.ofList (hexDigits 2 value.natAbs)

/-- The hexadecimal form of a colour given by its hue in degrees and its saturation and lightness in
percent. Parts that are out of range are not cut off. -/
def toHex (hue saturation lightness : Binary64) : Except Unbounded String := do
  let (red, green, blue) :=
    channels ((hue.modNat 360).divNat 360) (lightness.divNat 100) (saturation.divNat 100)
  let red ← (red * ofInt 255).toNearestInt
  let green ← (green * ofInt 255).toNearestInt
  let blue ← (blue * ofInt 255).toNearestInt
  return "#" ++ hexPair red ++ hexPair green ++ hexPair blue

/-- Whether a character is painted in rainbow text. -/
def isVisible (char : Char) : Bool := '!' ≤ char && char ≤ '~'

/-- Characters painted one by one, the hue turning by a step after each visible one. -/
def paintTurning (step : Binary64) : Binary64 → List Char → Except Unbounded (List Char)
  | _, [] => .ok []
  | hue, char :: rest =>
      if isVisible char then do
        let color ← toHex hue (ofInt 100) (ofInt 50)
        let later ← paintTurning step ((hue + step).modNat 360) rest
        return (paint .foreground color true (String.singleton char)).toList ++ later
      else do
        let later ← paintTurning step hue rest
        return char :: later

/-- Text painted in the colours of the rainbow: one full turn over its visible characters, starting
from an offset in degrees. -/
def rainbow (text : String) (offset : Int) (enabled : Bool) : Except Unbounded String :=
  let visible := text.toList.countP isVisible
  if visible = 0 ∨ enabled = false then .ok text
  else
    let step := Binary64.round (360 / (visible : Rat))
    let start := ofInt (offset % 360)
    (paintTurning step start text.toList).map String.ofList

theorem rainbow_emod (text : String) (offset : Int) (enabled : Bool) :
    rainbow text (offset % 360) enabled = rainbow text offset enabled := by
  simp [rainbow]

end Hue

end TermScene
