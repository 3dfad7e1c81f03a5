import TermScene.Binary64.Arithmetic

/-!
# Timing of animations

The frames of an animation share its duration evenly, but no frame is shown for less than a least
delay. The number of steps is the duration over the delay, rounded up; the quotient is taken in
doubles.
-/

namespace TermScene

/-- How long each frame of an animation is shown, and how many steps there are. -/
structure Timing where
  delay : Int
  steps : Int
  deriving DecidableEq, Repr

namespace Timing

/-- The timing of an animation of a given duration and number of frames. -/
def ofAnimation (duration frameCount minDelay : Int) : Except Binary64.NoQuotient Timing :=
  if frameCount = 0 then .error .byZero
  else
    let delay := max minDelay (Int.fdiv duration frameCount)
    if delay ≤ 0 then .ok ⟨delay, 0⟩
    else
      match Binary64.ratio duration delay with
      | .error cause => .error cause
      | .ok quotient =>
          match quotient.ceil with
          | .ok steps => .ok ⟨delay, max 0 steps⟩
          | .error _ => .error .tooLarge

end Timing

end TermScene
