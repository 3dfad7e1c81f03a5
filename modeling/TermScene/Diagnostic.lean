import TermScene.SourceError
import TermScene.Text.Lines

/-!
# Diagnostics

A diagnostic is an error in a program made ready to be shown: with a code, the stretch of one line
that it is about, and help. Rendered, it shows that line with carets under the stretch.

Errors are classified by what they say: a stray character, an unknown command, the end of the program
where something was still wanted, and any other stray token.
-/

namespace TermScene

/-- How grave a diagnostic is. -/
inductive Severity where
  | error
  | warning
  deriving DecidableEq, Repr

/-- A stretch of one line, up to but not including its end column. -/
structure Span where
  line : Int
  startColumn : Int
  endColumn : Int
  filename : String
  deriving DecidableEq, Repr

namespace Span

/-- A stretch of a given length that starts at a place. -/
def ofLocation (location : Location) (length : Nat) (filename : String) : Span :=
  ⟨location.line, location.column, location.column + length, filename⟩

def length (span : Span) : Int := max 1 (span.endColumn - span.startColumn)

/-- A stretch as it is shown: the file and where the stretch starts. -/
def describe (span : Span) : String :=
  span.filename ++ ":" ++ toString span.line ++ ":" ++ toString span.startColumn

end Span

/-- An error or a warning, ready to be shown. -/
structure Diagnostic where
  code : String
  severity : Severity
  message : String
  span : Option Span
  helps : List String
  deriving DecidableEq, Repr

/-- The codes of diagnostics. -/
inductive DiagnosticCode where
  | unexpectedCharacter
  | unexpectedToken
  | unexpectedEnd
  | unknownCommand
  deriving DecidableEq, Repr

namespace DiagnosticCode

def name : DiagnosticCode → String
  | .unexpectedCharacter => "E0101"
  | .unexpectedToken => "E0201"
  | .unexpectedEnd => "E0202"
  | .unknownCommand => "E0203"

def names : List String :=
  [unexpectedCharacter.name, unexpectedToken.name, unexpectedEnd.name, unknownCommand.name]

end DiagnosticCode

namespace Found

/-- Whether nothing of the program was found: its end, or no token at all. -/
def isEnd : Found → Bool
  | .token piece => piece.kind == .endOfFile
  | .text _ => true
  | .unknown => true

/-- How many columns the thing found takes: the length of its text, but at least one. -/
def width : Found → Nat
  | .token piece =>
      if piece.kind = .endOfFile ∨ piece.text = "" then 1 else piece.text.length
  | .text _ => 1
  | .unknown => 1

end Found

namespace Diagnostic

/-- The start of the message for an unknown command. -/
def unknownCommandStart : String := "Unknown command"

def characterHelp : String := "negative numbers and escape sequences are not supported"

def commandHelp : String :=
  "commands are: background, circle, rect, text, line, var, rainbow, wait, frame, animate"

def semicolonHelp : String := "every command except frame and animate ends with ';'"

def classify : SourceError → DiagnosticCode × List String
  | .remark .. => (.unexpectedToken, [])
  | .strayCharacter .. => (.unexpectedCharacter, [characterHelp])
  | .strayToken message _ expected found =>
      if message.toList.take unknownCommandStart.length = unknownCommandStart.toList then
        (.unknownCommand, [commandHelp])
      else if found.isEnd then (.unexpectedEnd, [])
      else if expected = some TokenKind.semicolon.name then (.unexpectedToken, [semicolonHelp])
      else (.unexpectedToken, [])

def errorWidth : SourceError → Nat
  | .strayToken _ _ _ found => found.width
  | _ => 1

/-- The diagnostic of an error. A place without the name of a file is shown with the given one. -/
def ofError (error : SourceError) (filename : String) : Diagnostic :=
  let (code, helps) := classify error
  { code := code.name
    severity := .error
    message := error.message
    span := error.location.map fun location =>
      .ofLocation location (errorWidth error)
        ((location.filename.filter (· ≠ "")).getD filename)
    helps }

def simpleMessage (diagnostic : Diagnostic) : String :=
  "[" ++ diagnostic.code ++ "] " ++ diagnostic.message

end Diagnostic

namespace Severity

def word : Severity → String
  | .error => "error"
  | .warning => "warning"

end Severity

/-- The escape codes that a rendered diagnostic uses; all are empty if it is rendered plain. -/
structure DiagnosticStyle where
  level : String
  strong : String
  margin : String
  help : String
  reset : String

namespace DiagnosticStyle

def plain : DiagnosticStyle := ⟨"", "", "", "", ""⟩

def colored (severity : Severity) : DiagnosticStyle :=
  { level :=
      match severity with
      | .error => "\x1b[91m"
      | .warning => "\x1b[93m"
    strong := "\x1b[1m"
    margin := "\x1b[94m"
    help := "\x1b[92m"
    reset := "\x1b[0m" }

end DiagnosticStyle

namespace Diagnostic

def lineNumber (line : Int) : String :=
  let digits := toString line
  String.ofList (List.replicate (3 - digits.length) ' ') ++ digits

/-- The first line of a rendered diagnostic. A code that is not known is left out. -/
def header (style : DiagnosticStyle) (diagnostic : Diagnostic) : String :=
  let code :=
    if DiagnosticCode.names.contains diagnostic.code then "[" ++ diagnostic.code ++ "]" else ""
  style.level ++ style.strong ++ diagnostic.severity.word ++ code ++ style.reset ++ ": "
    ++ style.strong ++ diagnostic.message ++ style.reset

def excerptLine? (lines : List (List Char)) (span : Span) : Option (List Char) :=
  if 1 ≤ span.line then lines[(span.line - 1).toNat]? else none

/-- A line of a program with its number, between empty lines, and carets under a stretch of it. -/
def excerpt (style : DiagnosticStyle) (span : Span) (line : List Char) : List String :=
  let margin := "   " ++ style.margin ++ "|" ++ style.reset
  [margin,
    style.margin ++ lineNumber span.line ++ " |" ++ style.reset ++ " " ++ String.ofList line,
    margin ++ " " ++ SourceError.indentation (span.startColumn - 1) ++ style.level
      ++ String.ofList (List.replicate span.length.toNat '^') ++ style.reset,
    margin]

def lines (style : DiagnosticStyle) (diagnostic : Diagnostic) (source : String) : List String :=
  let place :=
    match diagnostic.span with
    | none => []
    | some span =>
        ("  " ++ style.margin ++ "-->" ++ style.reset ++ " " ++ span.describe)
          :: ((excerptLine? (textLines source.toList) span).map (excerpt style span)).getD []
  let helps := diagnostic.helps.map fun help =>
    "   " ++ style.margin ++ "=" ++ style.reset ++ " " ++ style.help ++ "help:" ++ style.reset
      ++ " " ++ help
  diagnostic.header style :: place ++ helps

/-- A diagnostic with the line of the program that it is about. -/
def render (diagnostic : Diagnostic) (source : String) (colored : Bool) : String :=
  let style := if colored then DiagnosticStyle.colored diagnostic.severity else .plain
  "\n".intercalate (diagnostic.lines style source)

end Diagnostic

end TermScene
