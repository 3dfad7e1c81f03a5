import TermScene.Editor.Range
import TermScene.Text.Alphanumeric

/-!
# The word at a place

A word is a run of letters, numbers and underscores within a line. The word at a place is the longest
run that holds it or touches it. A place in a line is inside a string if an odd number of quotes stand
before it on the line.
-/

namespace TermScene

def isWordCharacter (char : Char) : Bool := isAlphanumeric char || char == '_'

namespace Editor

/-- A word in a document. -/
structure Word where
  text : String
  range : TextRange
  deriving DecidableEq, Repr

def lineAt? (source : String) (line : Int) : Option (List Char) :=
  if 0 ≤ line then (textLines source.toList)[line.toNat]? else none

/-- The longest run of characters of words that ends before a place in a line, and the one that starts
there. -/
def runsAround (line : List Char) (character : Nat) : List Char × List Char :=
  (((line.take character).reverse.takeWhile isWordCharacter).reverse,
    (line.drop character).takeWhile isWordCharacter)

def wordAt? (source : String) (position : Position) : Option Word :=
  match lineAt? source position.line with
  | none => none
  | some line =>
      if 0 ≤ position.character ∧ position.character ≤ line.length then
        let (before, after) := runsAround line position.character.toNat
        if before ++ after = [] then none
        else
          let first := position.character - before.length
          some ⟨String.ofList (before ++ after),
            .onLine position.line first (before ++ after).length⟩
      else none

/-- The part of a line before a place. A negative place counts from the end of the line. -/
def textBefore (line : List Char) (character : Int) : List Char :=
  line.take (if character < 0 then line.length + character else character).toNat

/-- Whether a place of a document is inside a string. -/
def insideString (source : String) (position : Position) : Bool :=
  match lineAt? source position.line with
  | none => false
  | some line => (textBefore line position.character).count '"' % 2 == 1

end Editor

end TermScene
