import TermScene.Color.Palette
import TermScene.Diagnostic
import TermScene.Editor.Range
import TermScene.Program.Parser

/-!
# Problems in a document

The problems that an editor shows: the error on which reading a document fails, or, if it can be read,
warnings about what has no visible effect. A command inside an animation that is no frame is never
played, and a colour that is neither a name nor three or six hexadecimal digits is hardly meant. A
warning is placed on the first word of the command.
-/

namespace TermScene

namespace Color

/-- Whether a character is a hexadecimal digit of ASCII. -/
def isAsciiHex (char : Char) : Bool :=
  char.isDigit || ('a' ≤ char && char ≤ 'f') || ('A' ≤ char && char ≤ 'F')

/-- Whether a colour is a name of the palette, or three or six hexadecimal digits with or without a
mark before them. -/
def isKnown (color : String) : Bool :=
  let plain := unquoted color
  let digits :=
    match plain.toList with
    | '#' :: rest => rest
    | chars => chars
  (Palette.find? plain).isSome
    || ((digits.length == 3 || digits.length == 6) && digits.all isAsciiHex)

end Color

namespace Editor

/-- A problem in a document. Only errors have a code. -/
structure Problem where
  range : TextRange
  message : String
  severity : Severity
  code : Option String
  deriving DecidableEq, Repr

def problemSource : String := "canvaslang"

/-- The problem that an error makes in a document. An error without a place stands at its start. -/
def problemOfError (error : SourceError) (uri : String) : Problem :=
  let diagnostic := Diagnostic.ofError error uri
  let range :=
    match diagnostic.span with
    | some span => TextRange.onLine (max 0 (span.line - 1)) (max 0 (span.startColumn - 1)) span.length
    | none => TextRange.onLine 0 0 1
  { range
    message :=
      "\n".intercalate (error.message :: diagnostic.helps.map fun help => "help: " ++ help)
    severity := .error
    code := some diagnostic.code }

/-- A warning on the first word of a command. A command without a place gets none. -/
def warning (command : Command) (message : String) : List Problem :=
  match command.place with
  | none => []
  | some place =>
      [{ range :=
          .onLine (place.line - 1) (place.column - 1) command.keyword.word.length
         message
         severity := .warning
         code := none }]

/-- The message for a command that is never played. -/
def ignoredMessage : String :=
  "Only frame blocks are played inside animate; this command is ignored"

def unknownColorMessage (color : String) : String :=
  "Unknown color " ++ color ++ "; expected a palette name or a hex value"

/-- The warnings about a command itself, given whether it stands directly in an animation. -/
def commandWarnings (inAnimation : Bool) (command : Command) : List Problem :=
  (if inAnimation && !command.isFrame then warning command ignoredMessage else [])
    ++ match command.color? with
      | some color =>
          if Color.isKnown color then [] else warning command (unknownColorMessage color)
      | none => []

mutual

/-- The warnings about a command and those inside it. -/
def lintCommand (inAnimation : Bool) : Command → List Problem
  | .frame body place =>
      commandWarnings inAnimation (.frame body place) ++ lintCommands false body
  | .animate children duration place =>
      commandWarnings inAnimation (.animate children duration place) ++ lintCommands true children
  | command => commandWarnings inAnimation command

def lintCommands (inAnimation : Bool) : List Command → List Problem
  | [] => []
  | first :: later => lintCommand inAnimation first ++ lintCommands inAnimation later

end

/-- A document that was read: its tokens and the program they make up. -/
structure ReadDocument where
  tokens : List Token
  read : ReadProgram

def readDocument (source uri : String) : Except ReadFailure ReadDocument :=
  match tokensOf source (some uri) with
  | .error error => .error (.source error)
  | .ok tokens =>
      match programOfTokens tokens source uri with
      | .ok read => .ok ⟨tokens, read⟩
      | .error failure => .error failure

/-- The problems in a document, and the notices that come with reading it. A document with a numeral
that has no value cannot be checked. -/
def problems (source uri : String) : Except ReadFailure (List Problem × List Notice) :=
  match readDocument source uri with
  | .ok document =>
      .ok (lintCommands false document.read.program.commands, document.read.notices)
  | .error (.source error) => .ok ([problemOfError error uri], [])
  | .error failure => .error failure

end Editor

end TermScene
