import TermScene.CommandLine.Options

/-!
# The command line of the editor server

The server speaks to an editor over its standard streams, or over a connection if it is told so. A value
that has been taken back on the command line stays empty; without a level the server does not start.
-/

namespace TermScene

/-- The options of the server. -/
inductive ServerOption where
  | help
  | tcp
  | host
  | portNumber
  | logLevel
  deriving DecidableEq, Repr

def serverOptions : OptionTable ServerOption :=
  { letters := [('h', .help)]
    names :=
      [("--help", .help), ("--tcp", .tcp), ("--host", .host), ("--port", .portNumber),
        ("--log-level", .logLevel)]
    takesValue := fun option => option == .host || option == .portNumber || option == .logLevel }

/-- How grave a report must be to be written down. -/
inductive LogLevel where
  | debug
  | info
  | warning
  | error
  deriving DecidableEq, Repr

namespace LogLevel

def word : LogLevel → String
  | .debug => "debug"
  | .info => "info"
  | .warning => "warning"
  | .error => "error"

def name : LogLevel → String
  | .debug => "DEBUG"
  | .info => "INFO"
  | .warning => "WARNING"
  | .error => "ERROR"

def ofWord? (word : String) : Option LogLevel :=
  [debug, info, warning, error].find? fun level => level.word = word

end LogLevel

/-- How the server is asked to run. The host and the number on it matter only for a connection. -/
structure ServerChoices where
  tcp : Bool := false
  host : Option String := some "127.0.0.1"
  portNumber : Option Int := some 2088
  logLevel : Option LogLevel := some .info
  deriving DecidableEq, Repr

namespace ServerChoices

def act (choices : ServerChoices) : ArgumentEvent ServerOption → Except Halt ServerChoices
  | .flag .help => .error .help
  | .flag .tcp => .ok { choices with tcp := true }
  | .value .host host => .ok { choices with host := some host }
  | .value .portNumber text =>
      match readInteger? text with
      | some portNumber => .ok { choices with portNumber := some portNumber }
      | none => .error .misuse
  | .value .logLevel text =>
      match LogLevel.ofWord? text with
      | some logLevel => .ok { choices with logLevel := some logLevel }
      | none => .error .misuse
  | .cleared .host => .ok { choices with host := none }
  | .cleared .portNumber => .ok { choices with portNumber := none }
  | .cleared .logLevel => .ok { choices with logLevel := none }
  | .unknown => .ok choices
  | .flag _ => .error .misuse
  | .value _ _ => .error .misuse
  | .cleared _ => .error .misuse
  | .operand _ => .error .misuse
  | .misuse => .error .misuse

def ofWords (words : List String) : Except Halt ServerChoices := serverOptions.obey act {} words

/-- Where the server listens: nowhere but on its standard streams, or at a host and a number on it. -/
def address (choices : ServerChoices) : Option (Option String × Option Int) :=
  if choices.tcp then some (choices.host, choices.portNumber) else none

/-- The message of a server that has no level to start with. -/
def noLevelMessage : String := "'list' object has no attribute 'upper'"

end ServerChoices

end TermScene
