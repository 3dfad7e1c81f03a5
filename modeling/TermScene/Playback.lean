import TermScene.Drawing
import TermScene.Scene

/-!
# Playback

Playing a scene is a sequence of events: live updates and pauses for the timeline, then either passes
over the frames or the final output once. Playback can be stopped at any pause, and it breaks off at a
step that cannot be played, or at the frames if the bound on their passes is no number. Passes over
frames go on for ever unless they are bounded, so such a playback is described by the events before the
first pass and the events of one pass.
-/

namespace TermScene

/-- Something that playback does. Pauses are in milliseconds. -/
inductive PlayEvent where
  | update (text : String)
  | final (text : String)
  | sleep (duration : Int)
  deriving DecidableEq, Repr

/-- How playback ends: after its last event, at a step that cannot be played, at a pause that is too
long for a clock, at frames that are to be passed over without a number of times, stopped from outside
at a pause, or never, because passes over the frames follow for ever. -/
inductive PlayEnd where
  | finished
  | unknownStep (description : String)
  | overlong
  | uncounted
  | stopped
  | looping
  deriving DecidableEq, Repr

/-- An end of playback in words, if it is not as planned. -/
def PlayEnd.message : PlayEnd → String
  | .unknownStep description => "Unknown timeline step: " ++ quoted description
  | .overlong => Binary64.NoQuotient.tooLarge.message
  | .uncounted => "'<' not supported between instances of 'int' and 'list'"
  | .stopped => "stopped"
  | .finished => ""
  | .looping => ""

/-- The events of a playback and how it ends. -/
structure Trace where
  events : List PlayEvent
  ending : PlayEnd
  deriving DecidableEq, Repr

def Trace.after (events : List PlayEvent) (trace : Trace) : Trace :=
  { trace with events := events ++ trace.events }

/-- How often to pass over the frames: a bound, for ever, or a bound that is no number, which spoils even
the first pass. -/
inductive Passes where
  | atMost (count : Int)
  | endless
  | uncounted
  deriving DecidableEq, Repr

/-- The events up to and including the pause of a given number, counted from one, if there are so many
pauses. -/
def throughSleep? (events : List PlayEvent) (number : Nat) : Option (List PlayEvent) :=
  match events with
  | [] => none
  | .sleep duration :: later =>
      if number = 1 then some [.sleep duration]
      else (throughSleep? later (number - 1)).map (.sleep duration :: ·)
  | event :: later => (throughSleep? later number).map (event :: ·)

/-- A trace that is stopped at the pause of a given number, if it comes so far. -/
def Trace.stopAt (trace : Trace) (number : Option Nat) : Trace :=
  match number.bind (throughSleep? trace.events) with
  | some events => ⟨events, .stopped⟩
  | none => trace

namespace Scene

def timelineTrace (settings : Settings) : List Step → Trace
  | [] => ⟨[], .finished⟩
  | .picture content background hold overlay :: later =>
      (timelineTrace settings later).after
        [.update (compose settings background (content ++ overlay)), .sleep hold]
  | .pause duration :: later => (timelineTrace settings later).after [.sleep duration]
  | .unknown description :: _ => ⟨[], .unknownStep description⟩

def passEvents (settings : Settings) (scene : Scene) : List PlayEvent :=
  scene.frames.toList.flatMap fun frame =>
    [.update (compose settings scene.background frame), .sleep settings.frameInterval]

def passesTrace (settings : Settings) (scene : Scene) (count : Nat) : Trace :=
  ⟨(List.replicate count (scene.passEvents settings)).flatten, .finished⟩

/-- The passes over the frames that come before playback is stopped at the pause of a given number, if
it is to be stopped. A pass holds at least one pause, so as many passes as pauses are enough. -/
def frameTrace (settings : Settings) (scene : Scene) (passes : Passes) (stop : Option Nat) : Trace :=
  if scene.frames.isEmpty then ⟨[], .finished⟩
  else
    match passes, stop with
    | .uncounted, _ => ⟨[], .uncounted⟩
    | .atMost count, some (number + 1) => scene.passesTrace settings (min count.toNat (number + 1))
    | .atMost count, _ => scene.passesTrace settings count.toNat
    | .endless, some (number + 1) =>
        { scene.passesTrace settings (number + 1) with ending := .looping }
    | .endless, _ => ⟨[], .looping⟩

/-- The number of passes over the frames that are completed when nothing stops them. -/
def completedPasses (scene : Scene) (passes : Passes) : Nat :=
  match passes with
  | .atMost count => if scene.frames.isEmpty then 0 else count.toNat
  | .endless => 0
  | .uncounted => 0

def playTimeline (settings : Settings) (scene : Scene) (stop : Option Nat) : Trace :=
  (timelineTrace settings scene.timeline.toList).stopAt stop

def loopFrames (settings : Settings) (scene : Scene) (passes : Passes) (stop : Option Nat) : Trace :=
  (scene.frameTrace settings passes stop).stopAt stop

/-- What follows the timeline of a scene: its frames or, if it has none, its final output. -/
def closing (settings : Settings) (scene : Scene) (passes : Passes) (stop : Option Nat) : Trace :=
  if scene.frames.isEmpty then
    ⟨[.final (compose settings scene.background scene.output)], .finished⟩
  else scene.frameTrace settings passes stop

/-- Playing a scene: its timeline and, if that comes to its end, what follows it. -/
def play (settings : Settings) (scene : Scene) (passes : Passes) (stop : Option Nat) : Trace :=
  let timeline := timelineTrace settings scene.timeline.toList
  if timeline.ending = .finished then
    ((scene.closing settings passes stop).after timeline.events).stopAt stop
  else timeline.stopAt stop

end Scene

end TermScene
