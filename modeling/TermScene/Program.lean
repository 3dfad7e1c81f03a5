import TermScene.Binary64
import TermScene.Location

/-!
# Programs

A program is a list of commands. A command draws, changes the state of the scene, takes time or holds
further commands in a block. Each command keeps the place of its first word; two programs are alike
when they differ at most in those places.

Colours keep the quotes of the string they were written as; drawn text has lost them.
-/

namespace TermScene

/-- Something to draw. Where it is placed is recorded, but drawings are stacked in order. -/
inductive Drawing where
  | circle (x y radius : Binary64) (fill : String)
  | rect (x y width height : Binary64) (fill : String)
  | text (text : String) (x y : Binary64) (size : Int) (color : String)
  | line (x1 y1 x2 y2 : Binary64) (color : String)
  deriving DecidableEq

namespace Drawing

def color : Drawing → String
  | .circle _ _ _ fill => fill
  | .rect _ _ _ _ fill => fill
  | .text _ _ _ _ color => color
  | .line _ _ _ _ color => color

/-- Whether two drawings have the same kind and equal parts. -/
def alike : Drawing → Drawing → Bool
  | .circle x y radius fill, .circle x' y' radius' fill' =>
      x.equals x' && y.equals y' && radius.equals radius' && fill == fill'
  | .rect x y width height fill, .rect x' y' width' height' fill' =>
      x.equals x' && y.equals y' && width.equals width' && height.equals height' && fill == fill'
  | .text content x y size color, .text content' x' y' size' color' =>
      content == content' && x.equals x' && y.equals y' && size == size' && color == color'
  | .line x1 y1 x2 y2 color, .line x1' y1' x2' y2' color' =>
      x1.equals x1' && y1.equals y1' && x2.equals x2' && y2.equals y2' && color == color'
  | _, _ => false

end Drawing

/-- A command of a program. A duration of `wait` and `animate` is in milliseconds, one of `rainbow`
counts hue steps. -/
inductive Command where
  | background (color : String) (place : Option Location)
  | draw (drawing : Drawing) (place : Option Location)
  | define (name : String) (value : Binary64) (place : Option Location)
  | rainbow (text : String) (x y : Binary64) (duration : Int) (place : Option Location)
  | wait (duration : Int) (place : Option Location)
  | frame (commands : List Command) (place : Option Location)
  | animate (children : List Command) (duration : Int) (place : Option Location)
  deriving Inhabited

namespace Command

def place : Command → Option Location
  | .background _ place => place
  | .draw _ place => place
  | .define _ _ place => place
  | .rainbow _ _ _ _ place => place
  | .wait _ place => place
  | .frame _ place => place
  | .animate _ _ place => place

def isFrame : Command → Bool
  | .frame .. => true
  | _ => false

def color? : Command → Option String
  | .background color _ => some color
  | .draw drawing _ => some drawing.color
  | _ => none

mutual

/-- Whether two commands are of the same kind and have equal parts, their places aside. -/
def alike : Command → Command → Bool
  | .background color _, .background color' _ => color == color'
  | .draw drawing _, .draw drawing' _ => drawing.alike drawing'
  | .define name value _, .define name' value' _ => name == name' && value.equals value'
  | .rainbow text x y duration _, .rainbow text' x' y' duration' _ =>
      text == text' && x.equals x' && y.equals y' && duration == duration'
  | .wait duration _, .wait duration' _ => duration == duration'
  | .frame commands _, .frame commands' _ => allAlike commands commands'
  | .animate children duration _, .animate children' duration' _ =>
      allAlike children children' && duration == duration'
  | _, _ => false

/-- Whether two lists of commands are alike one by one. -/
def allAlike : List Command → List Command → Bool
  | [], [] => true
  | command :: later, command' :: later' => alike command command' && allAlike later later'
  | _, _ => false

end

end Command

/-- A whole program. -/
structure Program where
  commands : List Command
  place : Option Location

namespace Program

/-- Whether two programs are alike, the places in them aside. -/
def alike (left right : Program) : Bool := Command.allAlike left.commands right.commands

end Program

/-- The first words of commands. -/
inductive Keyword where
  | background
  | circle
  | rect
  | text
  | line
  | animate
  | var
  | rainbow
  | wait
  | frame
  deriving DecidableEq, Repr

namespace Keyword

/-- Every keyword, in the order in which they are offered. -/
def all : List Keyword :=
  [.background, .circle, .rect, .text, .line, .animate, .var, .rainbow, .wait, .frame]

def word : Keyword → String
  | .background => "background"
  | .circle => "circle"
  | .rect => "rect"
  | .text => "text"
  | .line => "line"
  | .animate => "animate"
  | .var => "var"
  | .rainbow => "rainbow"
  | .wait => "wait"
  | .frame => "frame"

def ofWord? (word : String) : Option Keyword := all.find? fun keyword => keyword.word = word

theorem ofWord?_word (keyword : Keyword) : ofWord? keyword.word = some keyword := by
  cases keyword <;> decide +kernel

theorem word_of_ofWord? {word : String} {keyword : Keyword} (found : ofWord? word = some keyword) :
    keyword.word = word := by
  simpa using List.find?_some found

end Keyword

def Drawing.keyword : Drawing → Keyword
  | .circle .. => .circle
  | .rect .. => .rect
  | .text .. => .text
  | .line .. => .line

def Command.keyword : Command → Keyword
  | .background .. => .background
  | .draw drawing _ => drawing.keyword
  | .define .. => .var
  | .rainbow .. => .rainbow
  | .wait .. => .wait
  | .frame .. => .frame
  | .animate .. => .animate

end TermScene
