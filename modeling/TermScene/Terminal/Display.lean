/-!
# Redrawing in place

A display shows live text on a terminal: every update erases the region of the one before and draws
over it. Final text is written below the live region and ends it. The cursor is hidden by the first
update that draws and shown again when the display is closed.

The region is erased from the line the cursor is on upwards; since live text ends with a newline, that
is one line more than the text has.
-/

namespace TermScene

namespace Terminal

def eraseLine : String := "\x1b[2K"

def cursorUp : String := "\x1b[1A"

def cursorLeft : String := "\x1b[G"

def hideCursor : String := "\x1b[?25l"

def showCursor : String := "\x1b[?25h"

def reset : String := "\x1b[0m"

/-- Erases so many lines from the line of the cursor upwards, and goes to the first column. -/
def eraseLines : Nat → String
  | 0 => ""
  | count + 1 =>
      String.join (List.replicate count (eraseLine ++ cursorUp)) ++ eraseLine ++ cursorLeft

end Terminal

/-- A display: whether it hides the cursor while it is live, the live text and how many lines it
takes, and whether the cursor is hidden. -/
structure Display where
  managesCursor : Bool := true
  liveText : String := ""
  liveLines : Nat := 0
  hidden : Bool := false
  deriving DecidableEq, Repr

namespace Display

/-- The number of lines that a text takes, the one after its last newline included. -/
def lineCount (text : String) : Nat := text.toList.count '\n' + 1

/-- Shows live text in place of the text before. What is written is given piece by piece; text that is
already shown is not written again. -/
def update (display : Display) (text : String) : List String × Display :=
  let output := text ++ "\n"
  if output = display.liveText then ([], display)
  else
    let hides := display.managesCursor && !display.hidden
    let first := if hides then [Terminal.hideCursor] else []
    (first ++ [Terminal.eraseLines display.liveLines ++ output],
      { display with
        liveText := output
        liveLines := lineCount output
        hidden := display.hidden || hides })

/-- Writes final text below the live text, which is live no longer. -/
def final (display : Display) (text : String) : List String × Display :=
  ([text ++ "\n"], { display with liveText := "", liveLines := 0 })

/-- Restores the colours and the cursor, if the cursor is hidden. -/
def close (display : Display) : List String × Display :=
  if display.hidden then
    ([Terminal.reset ++ Terminal.showCursor], { display with hidden := false })
  else ([], display)

end Display

end TermScene
