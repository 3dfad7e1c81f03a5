import TermScene.Notice
import TermScene.Settings

/-!
# The journal of a run

A run notes down, line by line, what its user should know, and if it is to be verbose also how it gets
on. A line names how grave the matter is, the part of the program that it comes from, and the matter.
-/

namespace TermScene

/-- How a run gets on. -/
inductive Progress where
  | scanned (tokens : Nat) (path : String)
  | starting (path : String) (settings : Settings)
  | evaluated (commands frames steps : Nat)
  | entersLoop (frames : Nat)
  | interrupted
  | broken
  deriving DecidableEq, Repr

def listedBool (value : Bool) : String := if value then "True" else "False"

def Settings.describe (settings : Settings) : String :=
  "RuntimeConfig(" ++ ", ".intercalate
      ["color=" ++ listedBool settings.color,
        "font=" ++ quoted settings.font,
        "small_font=" ++ quoted settings.smallFont,
        "small_size=" ++ toString settings.smallSize,
        "frame_interval_ms=" ++ toString settings.frameInterval,
        "rainbow_step_ms=" ++ toString settings.rainbowStep,
        "min_frame_delay_ms=" ++ toString settings.minFrameDelay]
    ++ ")"

namespace Progress

def channel : Progress → String
  | .scanned _ _ => "canvaslang.compiler.lexer"
  | .evaluated _ _ _ => "canvaslang.runtime.interpreter"
  | .entersLoop _ => "canvaslang.runtime.player"
  | .starting _ _ => "canvaslang"
  | .interrupted => "canvaslang"
  | .broken => "canvaslang"

def message : Progress → String
  | .scanned tokens path => "Lexed " ++ toString tokens ++ " tokens from " ++ path
  | .starting path settings => "Running " ++ path ++ " with " ++ settings.describe
  | .evaluated commands frames steps =>
      "Evaluated " ++ toString commands ++ " command(s): " ++ toString frames ++ " frame(s), "
        ++ toString steps ++ " timeline step(s)"
  | .entersLoop frames => "Entering frame loop with " ++ toString frames ++ " frame(s)"
  | .interrupted => "Playback interrupted"
  | .broken => "Unhandled error"

end Progress

def journalLine (level channel message : String) : String :=
  level ++ " " ++ channel ++ ": " ++ message ++ "\n"

def Notice.line (notice : Notice) : String := journalLine "WARNING" notice.channel notice.message

def Progress.line (progress : Progress) : String :=
  journalLine "DEBUG" progress.channel progress.message

end TermScene
