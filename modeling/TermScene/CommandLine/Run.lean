import TermScene.CommandLine.Invocation
import TermScene.CommandLine.Journal
import TermScene.Diagnostic
import TermScene.Program.Listing
import TermScene.Program.Parser
import TermScene.Terminal.Session
import TermScene.Text.Path
import TermScene.Text.Utf8

/-!
# What a command does

A command comes to a sequence of events: text goes to the output or to the error stream, or nothing
happens for some time. In the end there is an exit code, unless the frames of a scene are shown for
ever. Nothing here is done: the events are described, given what stands in files and in the environment.

Text goes to the output only when the program has been read and evaluated. The exit code is 0 on
success, 1 if something failed, 2 if the command line makes no sense, and 130 if a playback was
interrupted.
-/

namespace TermScene

/-- What stands at a path. -/
inductive FileEntry where
  | missing
  | folder
  | octets (content : List UInt8)

/-- What a command depends on besides its words. A playback is interrupted at the pause of a given
number. -/
structure Surroundings where
  find : (path : String) → FileEntry
  environment : Environment := []
  outputIsTerminal : Bool := false
  errorIsTerminal : Bool := false
  interruptAt : Option Nat := none
  lettering : Lettering := .builtin

/-- Something that a command does. -/
inductive CommandEvent where
  | output (text : String)
  | error (text : String)
  | sleep (seconds : Binary64)
  deriving DecidableEq

/-- How a command ends: with an exit code, or never, passing over and over the same events on a
display. -/
inductive CommandEnd where
  | exit (code : Nat)
  | forever (display : Display) (pass : List PlayEvent)

/-- What a command comes to. -/
structure CommandRun where
  events : List CommandEvent
  ending : CommandEnd

def CommandRun.after (events : List CommandEvent) (run : CommandRun) : CommandRun :=
  { run with events := events ++ run.events }

/-- A pause in seconds, if the clock can count them. -/
def secondsOf (milliseconds : Int) : Except Binary64.NoQuotient Binary64 :=
  Binary64.ratio milliseconds 1000

def canSleep (milliseconds : Int) : Bool := (secondsOf milliseconds).toBool

/-- The events before the first pause that the clock cannot count, if there is one. -/
def beforeOverlong? : List PlayEvent → Option (List PlayEvent)
  | [] => none
  | .sleep duration :: later =>
      if canSleep duration then (beforeOverlong? later).map (.sleep duration :: ·) else some []
  | event :: later => (beforeOverlong? later).map (event :: ·)

/-- A playback by the clock: it breaks off at a pause that the clock cannot count. -/
def Trace.clocked (trace : Trace) : Trace :=
  match beforeOverlong? trace.events with
  | some events => ⟨events, .overlong⟩
  | none => trace

/-- What happens on a terminal, as a command does it. -/
def onTerminal (events : List TerminalEvent) : List CommandEvent :=
  events.filterMap fun event =>
    match event with
    | .write text => some (.output text)
    | .sleep duration => (secondsOf duration).toOption.map .sleep

namespace Surroundings

def colorsMessages (surroundings : Surroundings) : Bool :=
  surroundings.errorIsTerminal && (surroundings.environment.value? "NO_COLOR").isNone

/-- A text in the colour of an escape code, if messages are coloured. -/
def tint (surroundings : Surroundings) (code text : String) : String :=
  if surroundings.colorsMessages then code ++ text ++ Terminal.reset else text

def failureTint : String := "\x1b[91m"

def successTint : String := "\x1b[92m"

def fail (surroundings : Surroundings) (message : String) : CommandRun :=
  ⟨[.error (surroundings.tint failureTint ("Error: " ++ message) ++ "\n")], .exit 1⟩

end Surroundings

namespace Invocation

def toolName : String := "canvas-lang"

def version : String := "0.2.0"

def usage : String := "Usage: " ++ toolName ++ " <script.canvas>"

/-- A report on progress, if the command is to be verbose. -/
def report (invocation : Invocation) (progress : Progress) : List CommandEvent :=
  if invocation.verbose then [.error progress.line] else []

def warnings (notices : List Notice) : List CommandEvent :=
  notices.map fun notice => .error notice.line

def breakDown (invocation : Invocation) (surroundings : Surroundings) (message : String) :
    CommandRun :=
  (surroundings.fail message).after (invocation.report .broken)

/-- The settings that a command line changes. An empty font changes nothing. -/
def overrides (invocation : Invocation) : Settings.Overrides :=
  let font := invocation.font.filter (· ≠ "")
  { color := if invocation.plain then some false else none, font, smallFont := font }

/-- How often the frames are to be shown with a given pause after each. When the clock cannot count the
pause the first pass is already broken off, and no other has to be planned. -/
def passes (invocation : Invocation) (interval : Int) : Passes :=
  if canSleep interval then invocation.loops
  else
    match invocation.loops with
    | .atMost count => .atMost (min count 1)
    | .endless => .atMost 1
    | .uncounted => .uncounted

/-- Shows a scene on a display, and leaves the display. -/
def present (invocation : Invocation) (surroundings : Surroundings) (settings : Settings)
    (display : Display) (scene : Scene) : CommandRun :=
  let passes := invocation.passes settings.frameInterval
  let timeline := (scene.playTimeline settings surroundings.interruptAt).clocked
  let trace :=
    if timeline.ending = .finished then
      (scene.play settings passes surroundings.interruptAt).clocked
    else timeline
  let (before, middle) := display.performAll timeline.events
  let (after, last) := middle.performAll (trace.events.drop timeline.events.length)
  let entersLoop := !scene.frames.isEmpty && timeline.ending == .finished
  let events :=
    onTerminal before
      ++ (if entersLoop then invocation.report (.entersLoop scene.frames.size) else [])
      ++ onTerminal (after ++ (last.finish trace.ending).1)
  let ending : CommandRun :=
    match trace.ending with
    | .finished => ⟨[], .exit 0⟩
    | .stopped => ⟨invocation.report .interrupted, .exit 130⟩
    | .looping => ⟨[], .forever last (scene.passEvents settings)⟩
    | other => invocation.breakDown surroundings other.message
  ending.after events

/-- Evaluates a program and shows its scene on a display that is open all the while. -/
def play (invocation : Invocation) (surroundings : Surroundings) (path : String)
    (program : Program) : CommandRun :=
  let (base, notices) := Settings.ofEnvironment surroundings.environment surroundings.outputIsTerminal
  let settings := base.override invocation.overrides
  let display : Display := {}
  let evaluation := program.evaluate settings surroundings.lettering
  let run : CommandRun :=
    match evaluation.outcome with
    | .error failure =>
        (invocation.breakDown surroundings failure.message).after (onTerminal display.leave.1)
    | .ok scene =>
        (invocation.present surroundings settings display scene).after
          (invocation.report
            (.evaluated program.commands.length scene.frames.size scene.timeline.size))
  run.after
    (warnings notices ++ invocation.report (.starting path settings)
      ++ warnings evaluation.stage.notices.toList)

def list (lines : List String) : CommandRun :=
  ⟨lines.map fun line => .output (line ++ "\n"), .exit 0⟩

/-- Why a program cannot be read: only what is wrong with the program is explained when it is checked. -/
def explain (invocation : Invocation) (surroundings : Surroundings) (source path : String) :
    ReadFailure → CommandRun
  | .source error =>
      if invocation.inspection = some .check then
        let shown := (Diagnostic.ofError error path).render source surroundings.colorsMessages
        ⟨[.error (shown ++ "\n")], .exit 1⟩
      else surroundings.fail error.message
  | failure => invocation.breakDown surroundings failure.message

def carryOut (invocation : Invocation) (surroundings : Surroundings) (source path : String) :
    CommandRun :=
  match tokensOf source (some path) with
  | .error error => invocation.explain surroundings source path (.source error)
  | .ok tokens =>
      let run : CommandRun :=
        if invocation.inspection = some .tokens then list (tokens.map Token.describe)
        else
          match programOfTokens tokens source path with
          | .error failure => invocation.explain surroundings source path failure
          | .ok read =>
              let next : CommandRun :=
                match invocation.inspection with
                | some .check =>
                    list [surroundings.tint Surroundings.successTint "OK:" ++ " " ++ path
                      ++ " (no syntax errors)"]
                | some .commands => list (Listing.program read.program)
                | _ => invocation.play surroundings path read.program
              next.after (warnings read.notices)
      run.after (invocation.report (.scanned tokens.length path))

/-- Runs the command. The program is read as UTF-8, with every line break a newline. -/
def run (invocation : Invocation) (surroundings : Surroundings) : CommandRun :=
  match invocation.input.map plainPath with
  | none => ⟨[.error (usage ++ "\n")], .exit 1⟩
  | some path =>
      match surroundings.find path with
      | .missing => surroundings.fail ("File not found: " ++ path)
      | .folder =>
          invocation.breakDown surroundings ("[Errno 21] Is a directory: " ++ quoted path)
      | .octets content =>
          match Utf8.decode content with
          | .error fault => invocation.breakDown surroundings fault.message
          | .ok text =>
              invocation.carryOut surroundings (String.ofList (withNewlines text.toList)) path

end Invocation

/-- What a command does that is given by its words. -/
def commandRun (words : List String) (surroundings : Surroundings) : CommandRun :=
  match Invocation.ofWords words with
  | .ok invocation => invocation.run surroundings
  | .error .version => Invocation.list [Invocation.toolName ++ " " ++ Invocation.version]
  | .error .help => Invocation.list [Invocation.usage]
  | .error .misuse => ⟨[.error (Invocation.usage ++ "\n")], .exit 2⟩

end TermScene
