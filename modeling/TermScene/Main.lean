import TermScene.CommandLine.Run

/-!
# The player

The outermost layer of the player: it looks up the file and the environment, and then does what the
command comes to.
-/

namespace TermScene

namespace Player

def find (path : String) : IO FileEntry := do
  match ← (IO.FS.readBinFile path).toBaseIO with
  | .ok content => return .octets content.toList
  | .error (.noFileOrDirectory ..) => return .missing
  | .error (.inappropriateType ..) => return .folder
  | .error problem => throw problem

def readEnvironment : IO Environment :=
  ["NO_COLOR", "CANVASLANG_FONT", "CANVASLANG_FRAME_INTERVAL"].filterMapM fun name => do
    return (← IO.getEnv name).map fun value => (name, value)

def inputOf (words : List String) : Option String :=
  match Invocation.ofWords words with
  | .ok invocation => invocation.input.map plainPath
  | .error _ => none

/-- Sleeps for some milliseconds, however many. -/
partial def sleep (milliseconds : Nat) : IO Unit := do
  let longest := 1000000000
  if milliseconds ≤ longest then IO.sleep milliseconds.toUInt32
  else
    IO.sleep longest.toUInt32
    sleep (milliseconds - longest)

def perform : CommandEvent → IO Unit
  | .output text => do
      let output ← IO.getStdout
      output.putStr text
      output.flush
  | .error text => do (← IO.getStderr).putStr text
  | .sleep seconds =>
      match seconds with
      | .finite value => sleep (value * 1000).ceil.toNat
      | _ => return

/-- Shows the same events on a display over and over. -/
partial def showForever (display : Display) (pass : List PlayEvent) : IO Unit := do
  let (events, next) := display.performAll pass
  (onTerminal events).forM perform
  showForever next pass

end Player

end TermScene

open TermScene in
/-- Runs the player with the words of the command line. -/
def main (words : List String) : IO UInt32 := do
  let entry ← match Player.inputOf words with
    | some path => Player.find path
    | none => pure .missing
  let surroundings : Surroundings :=
    { find := fun _ => entry
      environment := ← Player.readEnvironment
      outputIsTerminal := ← (← IO.getStdout).isTty
      errorIsTerminal := ← (← IO.getStderr).isTty }
  let run := commandRun words surroundings
  run.events.forM Player.perform
  match run.ending with
  | .exit code => return code.toUInt32
  | .forever display pass => do
      Player.showForever display pass
      return 0
