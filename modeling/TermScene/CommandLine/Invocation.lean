import TermScene.CommandLine.Options
import TermScene.Playback

/-!
# The command line of the player

The player takes one file. It plays the program in it, unless it is told only to check it or to list its
tokens or its commands; of these three only one can be asked for. Frames are shown for ever unless a
number of passes over them is given.
-/

namespace TermScene

/-- What to do with a program other than to play it. -/
inductive Inspection where
  | check
  | tokens
  | commands
  deriving DecidableEq, Repr

/-- The options of the player. -/
inductive PlayerOption where
  | help
  | version
  | inspect (inspection : Inspection)
  | noColor
  | font
  | loops
  | verbose
  deriving DecidableEq, Repr

def playerOptions : OptionTable PlayerOption :=
  { letters := [('h', .help), ('V', .version), ('v', .verbose)]
    names :=
      [("--help", .help), ("--version", .version), ("--check", .inspect .check),
        ("--tokens", .inspect .tokens), ("--ast", .inspect .commands), ("--no-color", .noColor),
        ("--font", .font), ("--loops", .loops), ("--verbose", .verbose)]
    takesValue := fun option => option == .font || option == .loops
    operands := 1 }

/-- What the player is asked to do. -/
structure Invocation where
  input : Option String := none
  inspection : Option Inspection := none
  plain : Bool := false
  font : Option String := none
  loops : Passes := .endless
  verbose : Bool := false
  deriving DecidableEq, Repr

namespace Invocation

def act (invocation : Invocation) : ArgumentEvent PlayerOption → Except Halt Invocation
  | .flag .help => .error .help
  | .flag .version => .error .version
  | .flag (.inspect inspection) =>
      if invocation.inspection.all (· = inspection) then
        .ok { invocation with inspection := some inspection }
      else .error .misuse
  | .flag .noColor => .ok { invocation with plain := true }
  | .flag .verbose => .ok { invocation with verbose := true }
  | .value .font name => .ok { invocation with font := some name }
  | .value .loops text =>
      match readInteger? text with
      | some count => .ok { invocation with loops := .atMost count }
      | none => .error .misuse
  | .cleared .font => .ok { invocation with font := none }
  | .cleared .loops => .ok { invocation with loops := .uncounted }
  | .operand path => .ok { invocation with input := some path }
  | .unknown => .ok invocation
  | .flag .font => .error .misuse
  | .flag .loops => .error .misuse
  | .value _ _ => .error .misuse
  | .cleared _ => .error .misuse
  | .misuse => .error .misuse

def ofWords (words : List String) : Except Halt Invocation := playerOptions.obey act {} words

end Invocation

end TermScene
