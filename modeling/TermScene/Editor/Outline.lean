import TermScene.Binary64.Shortest
import TermScene.Editor.Lint

/-!
# The outline of a document

The outline is the tree of commands. The entry of a command runs from its first word to the token that
ends it, which is found in the tokens: a block ends at the brace that returns to its depth, every other
command at the first semicolon outside braces. A document that cannot be read has no outline.
-/

namespace TermScene

namespace Editor

/-- Kinds of entries, as editors know them. -/
inductive SymbolKind where
  | module
  | block
  | property
  | value
  | text
  | shape
  | event
  deriving DecidableEq, Repr

/-- The number of a kind in the language server protocol. -/
def SymbolKind.number : SymbolKind → Nat
  | .module => 2
  | .block => 3
  | .property => 7
  | .value => 13
  | .text => 15
  | .shape => 19
  | .event => 24

/-- An entry of an outline. Only entries of blocks have children, even if there are none. -/
structure OutlineEntry where
  name : String
  detail : Option String
  kind : SymbolKind
  range : TextRange
  selection : TextRange
  children : Option (List OutlineEntry)

def symbolKind : Command → SymbolKind
  | .background .. => .property
  | .draw (.text ..) _ => .text
  | .draw _ _ => .shape
  | .define .. => .value
  | .rainbow .. => .text
  | .wait .. => .event
  | .frame .. => .block
  | .animate .. => .event

def entryName : Command → String
  | .define name _ _ => "var " ++ name
  | command => command.keyword.word

def pointDetail (x y : Binary64) : String := "(" ++ x.display ++ ", " ++ y.display ++ ")"

def entryDetail : Command → String
  | .background color _ => Color.unquoted color
  | .draw (.circle x y radius _) _ => pointDetail x y ++ " r=" ++ radius.display
  | .draw (.rect x y width height _) _ =>
      pointDetail x y ++ " " ++ width.display ++ "x" ++ height.display
  | .draw (.text content ..) _ => quoted content
  | .draw (.line x1 y1 x2 y2 _) _ => pointDetail x1 y1 ++ " -> " ++ pointDetail x2 y2
  | .define _ value _ => value.display
  | .rainbow content .. => quoted content
  | .wait duration _ => toString duration ++ " ms"
  | .frame body _ => toString body.length ++ " command(s)"
  | .animate _ duration _ => toString duration ++ " ms"

/-- The first token that ends a construct, given how many braces are open before it: for a block the
brace that closes the last one, otherwise a semicolon while none is open. -/
def closing? (isBlock : Bool) (depth : Int) : List Token → Option Token
  | [] => none
  | token :: later =>
      match token.kind with
      | .leftBrace => closing? isBlock (depth + 1) later
      | .rightBrace =>
          if isBlock ∧ depth = 1 then some token else closing? isBlock (depth - 1) later
      | .semicolon => if !isBlock ∧ depth = 0 then some token else closing? isBlock depth later
      | _ => closing? isBlock depth later

/-- The last token of the construct that some tokens start with. One that nothing ends runs to the last
token. -/
def lastOf (isBlock : Bool) (tokens : List Token) : Option Token :=
  (closing? isBlock 0 tokens).or tokens.getLast?

def tokensFrom (tokens : List Token) (place : Location) : List Token :=
  tokens.dropWhile fun token => token.location.map Location.offset ≠ some place.offset

/-- The range of the construct that some tokens start with, and the range of its first token. -/
def constructRanges (isBlock : Bool) (tokens : List Token) : Option (TextRange × TextRange) :=
  match tokens.head?, lastOf isBlock tokens with
  | some first, some last =>
      match first.startPosition, first.stopPosition, last.stopPosition with
      | some start, some wordStop, some stop => some (⟨start, stop⟩, ⟨start, wordStop⟩)
      | _, _, _ => none
  | _, _ => none

/-- The ranges of a command among the tokens of its document. -/
def commandRanges (tokens : List Token) (command : Command) : Option (TextRange × TextRange) :=
  command.place.bind fun place => constructRanges command.isFrame (tokensFrom tokens place)

def commandEntry (tokens : List Token) (command : Command) (children : Option (List OutlineEntry)) :
    Option OutlineEntry :=
  (commandRanges tokens command).map fun (range, selection) =>
    { name := entryName command
      detail := some (entryDetail command)
      kind := symbolKind command
      range
      selection
      children }

mutual

/-- The entry of a command with those inside it, if its place is that of a token. -/
def entryOf (tokens : List Token) : Command → Option OutlineEntry
  | .frame body place =>
      (entriesOf tokens body).bind fun children =>
        commandEntry tokens (.frame body place) (some children)
  | .animate body duration place =>
      (entriesOf tokens body).bind fun children =>
        commandEntry tokens (.animate body duration place) (some children)
  | command => commandEntry tokens command none

def entriesOf (tokens : List Token) : List Command → Option (List OutlineEntry)
  | [] => some []
  | first :: later =>
      (entryOf tokens first).bind fun entry =>
        (entriesOf tokens later).map fun entries => entry :: entries

end

/-- The entry of a whole document. It is named by the first word. -/
def documentEntry (document : ReadDocument) : Option OutlineEntry :=
  match document.tokens.head?, constructRanges true document.tokens with
  | some first, some (range, selection) =>
      (entriesOf document.tokens document.read.program.commands).map fun children =>
        { name := first.text
          detail := none
          kind := .module
          range
          selection
          children := some children }
  | _, _ => none

/-- The outline of a document, and the notices that come with reading it. -/
def outline (source uri : String) : Except ReadFailure (List OutlineEntry × List Notice) :=
  match readDocument source uri with
  | .ok document => .ok ((documentEntry document).toList, document.read.notices)
  | .error (.source _) => .ok ([], [])
  | .error failure => .error failure

end Editor

end TermScene
