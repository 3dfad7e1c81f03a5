import TermScene.Token
import TermScene.Text.Quoted

/-!
# Errors in a program

What the lexer and the parser report. An error says what is wrong and where; the full text of an
error also shows the line it stands on, if it keeps one, with a caret under the column.
-/

namespace TermScene

/-- What stood where something else was expected. -/
inductive Found where
  | token (token : Token)
  | text (text : String)
  | unknown
  deriving DecidableEq, Repr

/-- An error in a program: a plain remark, a character that begins no lexeme, or a token where another
was expected. -/
inductive SourceError where
  | remark (message : String) (location : Option Location) (sourceLine : Option String)
  | strayCharacter (character : String) (location : Option Location) (sourceLine : Option String)
  | strayToken (message : String) (location : Option Location) (expected : Option String) (found : Found)
  deriving DecidableEq, Repr

namespace SourceError

def message : SourceError → String
  | .remark message _ _ => message
  | .strayCharacter character _ _ => "Unexpected character: " ++ quoted character
  | .strayToken message _ _ _ => message

def location : SourceError → Option Location
  | .remark _ location _ => location
  | .strayCharacter _ location _ => location
  | .strayToken _ location _ _ => location

/-- The line that the error keeps to show. An empty one is not shown. -/
def shownLine (error : SourceError) : Option String :=
  match error with
  | .remark _ _ sourceLine => sourceLine.filter (· ≠ "")
  | .strayCharacter _ _ sourceLine => sourceLine.filter (· ≠ "")
  | .strayToken .. => none

/-- Spaces that lead up to a column, as many as there are. -/
def indentation (count : Int) : String := String.ofList (List.replicate count.toNat ' ')

/-- The full text of an error. A line without a place is not shown, but the message is still followed
by the space that would set it off. -/
def text (error : SourceError) : String :=
  match error.location, error.shownLine with
  | none, none => error.message
  | some location, none => "[" ++ location.describe ++ "] " ++ error.message
  | none, some _ => error.message ++ " "
  | some location, some line =>
      "[" ++ location.describe ++ "] " ++ error.message ++ "\n    " ++ line ++ "\n"
        ++ indentation (4 + location.column - 1) ++ "^"

end SourceError

end TermScene
