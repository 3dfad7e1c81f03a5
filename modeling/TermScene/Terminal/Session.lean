import TermScene.Playback
import TermScene.Scene.Evaluation
import TermScene.Terminal.Display

/-!
# Scenes on a terminal

A program is run on a terminal with an open display: it is evaluated, and its scene is played on the
display. The display is closed however playback ends, and also if there is nothing to play because the
evaluation failed; only a playback that never ends never closes it. Nothing is written before the
evaluation is complete, and closing a display that has not hidden the cursor writes nothing.
-/

namespace TermScene

/-- Something that happens on a terminal: a piece of text is written, or nothing happens for some
milliseconds. -/
inductive TerminalEvent where
  | write (text : String)
  | sleep (duration : Int)
  deriving DecidableEq, Repr

namespace Display

def perform (display : Display) : PlayEvent → List TerminalEvent × Display
  | .update text =>
      let (written, next) := display.update text
      (written.map .write, next)
  | .final text =>
      let (written, next) := display.final text
      (written.map .write, next)
  | .sleep duration => ([.sleep duration], display)

def performAll (display : Display) : List PlayEvent → List TerminalEvent × Display
  | [] => ([], display)
  | event :: later =>
      let (done, next) := display.perform event
      let (rest, last) := next.performAll later
      (done ++ rest, last)

/-- Closes a display and leaves it. -/
def leave (display : Display) : List TerminalEvent × Display :=
  let (written, last) := display.close
  (written.map .write, last)

def finish (display : Display) (ending : PlayEnd) : List TerminalEvent × Display :=
  if ending = .looping then ([], display) else display.leave

def session (trace : Trace) : List TerminalEvent × Display :=
  let (done, display) := ({} : Display).performAll trace.events
  let (closing, last) := display.finish trace.ending
  (done ++ closing, last)

/-- A display that has not hidden the cursor is left without a trace. -/
theorem leave_of_shown {display : Display} (shown : display.hidden = false) :
    display.leave = ([], display) := by
  simp [leave, close, shown]

theorem performAll_append (display : Display) (first later : List PlayEvent) :
    display.performAll (first ++ later)
      = ((display.performAll first).1 ++ ((display.performAll first).2.performAll later).1,
        ((display.performAll first).2.performAll later).2) := by
  induction first generalizing display with
  | nil => simp [performAll]
  | cons event rest ih => simp [performAll, ih]

end Display

/-- What running a program on a terminal comes to: its evaluation, what happened on the terminal, and
how playback ended if there was any. -/
structure TerminalRun where
  evaluation : Evaluation
  events : List TerminalEvent
  ending : Except DrawFailure (Scene × PlayEnd)

def Program.run (settings : Settings) (lettering : Lettering) (program : Program) (passes : Passes)
    (stop : Option Nat) : TerminalRun :=
  let display : Display := {}
  let evaluation := program.evaluate settings lettering
  match evaluation.outcome with
  | .error failure => ⟨evaluation, display.leave.1, .error failure⟩
  | .ok scene =>
      let trace := scene.play settings passes stop
      ⟨evaluation, (Display.session trace).1, .ok (scene, trace.ending)⟩

end TermScene
