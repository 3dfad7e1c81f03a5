import TermScene.Color.Palette
import TermScene.Editor.Snippet
import TermScene.Editor.Word

/-!
# Completion and hovering

Inside a string the names of the palette are offered for completion, everywhere else the commands. Over
a command an editor shows how it is written and what it does; over the name of a colour, only inside a
string, what colour that is.
-/

namespace TermScene

namespace Editor

/-- Something that is offered for completion. -/
inductive Completion where
  | command (keyword : Keyword)
  | color (name hex : String)
  deriving DecidableEq, Repr

namespace Completion

def label : Completion → String
  | .command keyword => keyword.word
  | .color name _ => name

def detail : Completion → String
  | .command keyword => keyword.usage
  | .color _ hex => hex

/-- The number of the kind of what is offered, in the language server protocol. -/
def kindNumber : Completion → Nat
  | .command _ => 14
  | .color _ _ => 16

/-- The snippet to insert, if it is not the label that is inserted. -/
def snippet? : Completion → Option String
  | .command keyword => some keyword.snippetText
  | .color _ _ => none

def documentation? : Completion → Option String
  | .command keyword => some keyword.description
  | .color _ _ => none

/-- The number of the format of snippets in the language server protocol. -/
def snippetFormat : Nat := 2

end Completion

def commandCompletions : List Completion := Keyword.all.map .command

def colorCompletions : List Completion :=
  Palette.entries.map fun (name, hex) => .color name hex

/-- What is offered for completion at a place of a document. -/
def completions (source : String) (position : Position) : List Completion :=
  if insideString source position then colorCompletions else commandCompletions

/-- What is shown over a word. The text is in Markdown. -/
structure Hover where
  text : String
  range : TextRange
  deriving DecidableEq, Repr

def commandHelp (keyword : Keyword) : String :=
  "**" ++ keyword.word ++ "**\n\n```\n" ++ keyword.usage ++ "\n```\n\n" ++ keyword.description

/-- What is said about a colour under the name it was written as. -/
def colorHelp (name hex : String) : String := "**" ++ name ++ "**\n\nColor `" ++ hex ++ "`"

/-- What is said about a word, given whether it is inside a string. -/
def wordHelp? (inString : Bool) (word : String) : Option String :=
  match Keyword.ofWord? word with
  | some keyword => some (commandHelp keyword)
  | none => if inString then (Palette.find? word).map (colorHelp word) else none

def hover? (source : String) (position : Position) : Option Hover :=
  (wordAt? source position).bind fun word =>
    (wordHelp? (insideString source position) word.text).map fun text => ⟨text, word.range⟩

end Editor

end TermScene
