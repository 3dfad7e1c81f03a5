import TermScene.Text.Lines
import TermScene.Token

/-!
# Places in an editor

An editor counts lines and characters from zero. A range runs up to but not including its end. A place
that an editor asks about has numbers that fit a machine word without a sign bit.
-/

namespace TermScene

/-- A place in a document, counted from zero. -/
structure Position where
  line : Int
  character : Int
  deriving DecidableEq, Repr

/-- The greatest number of a line or a character that can be asked about. -/
def greatestPosition : Int := 2147483647

/-- Why a place cannot be asked about: the number of its line or its character. -/
inductive PositionFault where
  | line (number : Int)
  | character (number : Int)
  deriving DecidableEq, Repr

def PositionFault.message (fault : PositionFault) : String :=
  let (name, number) : String × Int :=
    match fault with
    | .line number => ("line", number)
    | .character number => ("character", number)
  "Position." ++ name ++ " should be in range [0:" ++ toString greatestPosition ++ "], but was "
    ++ toString number ++ "."

/-- A stretch of a document. -/
structure TextRange where
  start : Position
  stop : Position
  deriving DecidableEq, Repr

namespace TextRange

def onLine (line character length : Int) : TextRange :=
  ⟨⟨line, character⟩, ⟨line, character + length⟩⟩

end TextRange

namespace Position

/-- Whether a number of a line or a character can be asked about. -/
def isAskable (number : Int) : Bool := 0 ≤ number && number ≤ greatestPosition

/-- Why a place cannot be asked about. The line is looked at first. -/
def fault? (position : Position) : Option PositionFault :=
  if !isAskable position.line then some (.line position.line)
  else if !isAskable position.character then some (.character position.character)
  else none

def ofLocation (location : Location) : Position := ⟨location.line - 1, location.column - 1⟩

/-- The place just past a text that starts at a given place. -/
def past (start : Position) (text : String) : Position :=
  match (newlineParts text.toList).reverse with
  | last :: earlier :: others =>
      ⟨start.line + (earlier :: others).length, last.length⟩
  | _ => ⟨start.line, start.character + text.length⟩

end Position

namespace Token

def startPosition (token : Token) : Option Position := token.location.map .ofLocation

def stopPosition (token : Token) : Option Position :=
  token.startPosition.map (·.past token.text)

end Token

end TermScene
