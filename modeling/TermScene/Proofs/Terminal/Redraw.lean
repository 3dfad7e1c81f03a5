import TermScene.Proofs.Terminal.Screen
import TermScene.Terminal.Session

/-!
# What a display shows

A display writes text and control codes, and what is to be seen of it is told without them: the texts
that are settled, and the live text. The screen that reads what was written shows just these, one below
the other, whatever the events were, and only rows of the live text are ever erased. The step lemma says
so for one event, given that the display knows the live text that the screen shows.
-/

namespace TermScene

open Terminal

/-- An event whose text, if it has one, is made of characters to be shown, newlines and colour codes. -/
def PlayEvent.IsShowable : PlayEvent → Prop
  | .update text => Terminal.IsShowable text
  | .final text => Terminal.IsShowable text
  | .sleep _ => True

/-- What is to be seen: the texts that stay, and the live text. -/
structure Seen where
  settled : List String
  live : Option String

namespace Seen

def nothing : Seen := ⟨[], none⟩

/-- An update replaces the live text. A final text settles the live text and comes below it. -/
def next (seen : Seen) : PlayEvent → Seen
  | .update text => { seen with live := some text }
  | .final text => ⟨seen.settled ++ seen.live.toList ++ [text], none⟩
  | .sleep _ => seen

def follow (seen : Seen) (events : List PlayEvent) : Seen := events.foldl next seen

def settledRows (seen : Seen) : List (List Char) := seen.settled.flatMap textRows

def liveRows (seen : Seen) : List (List Char) := seen.live.toList.flatMap textRows

def rows (seen : Seen) : List (List Char) := seen.settledRows ++ seen.liveRows

/-- The rows of the live text and the one below them, where the cursor is. -/
def IsLiveRow (seen : Seen) (row : Nat) : Prop :=
  seen.live.isSome ∧ seen.settledRows.length ≤ row ∧ row ≤ seen.rows.length

end Seen

namespace Screen

/-- What happens on a terminal, as its screen sees it. -/
def watch (screen : Screen) : List TerminalEvent → Screen
  | [] => screen
  | .write text :: later => (screen.seeAll text.toList).watch later
  | .sleep _ :: later => screen.watch later

theorem watch_append (screen : Screen) (first later : List TerminalEvent) :
    screen.watch (first ++ later) = (screen.watch first).watch later := by
  induction first generalizing screen with
  | nil => rfl
  | cons event rest ih => cases event <;> simp [watch, ih]

end Screen

namespace Terminal

/-- The lines that a display counts are the rows of its text and the one below them. -/
theorem lineCount_eq (text : String) :
    Display.lineCount (text ++ "\n") = (textRows text).length + 1 := by
  have newline : "\n".toList = ['\n'] := rfl
  rw [Display.lineCount, length_textRows, String.toList_append, newline, List.count_append,
    List.count_singleton_self]

end Terminal

namespace Screen

def ErasesOnly (before after : Screen) (allowed : Nat → Prop) : Prop :=
  ∃ rows, after.erased = before.erased ++ rows ∧ ∀ row ∈ rows, allowed row

variable {screen : Screen} {done : List (List Char)}

theorem erasesOnly_of_eq {after : Screen} {allowed : Nat → Prop} (same : after.erased = screen.erased) :
    screen.ErasesOnly after allowed := by
  refine ⟨[], ?_, ?_⟩
  · rw [same, List.append_nil]
  · simp

/-- A text with a newline behind it comes below the rows that are shown. -/
theorem StandsAfter.seeAll_text {text : String} (stands : screen.StandsAfter done [])
    (showable : IsShowable text) :
    (screen.seeAll (text ++ "\n").toList).StandsAfter (done ++ textRows text) [] ∧
      (screen.seeAll (text ++ "\n").toList).erased = screen.erased := by
  have newline : "\n".toList = ['\n'] := rfl
  rcases rows : textRows text with _ | ⟨part, later⟩
  · exact absurd rows (partsAt_ne_nil _ _)
  rw [String.toList_append, newline]
  exact stands.seeAll_line showable rows

end Screen

/-- A display that knows the live text of what is to be seen, and a screen that shows what is to be
seen, with the cursor in the first column of the row below. -/
structure Display.Agrees (display : Display) (screen : Screen) (seen : Seen) : Prop where
  stands : screen.StandsAfter seen.rows []
  text : display.liveText = (seen.live.map (· ++ "\n")).getD ""
  lines : display.liveLines = (seen.live.map fun text => (textRows text).length + 1).getD 0

namespace Display.Agrees

variable {display : Display} {screen : Screen} {seen : Seen}

/-- Erasing the lines that the display counts leaves the settled rows. -/
theorem erase (agrees : display.Agrees screen seen) :
    (screen.seeAll (eraseLines display.liveLines).toList).StandsAfter seen.settledRows [] ∧
      screen.ErasesOnly (screen.seeAll (eraseLines display.liveLines).toList) seen.IsLiveRow := by
  have stands := agrees.stands
  rw [agrees.lines]
  rcases live : seen.live with _ | text
  · have rows : seen.rows = seen.settledRows := by simp [Seen.rows, Seen.liveRows, live]
    rw [rows] at stands
    exact ⟨stands, Screen.erasesOnly_of_eq rfl⟩
  · have rows : seen.rows = seen.settledRows ++ textRows text := by
      simp [Seen.rows, Seen.liveRows, live]
    rw [rows] at stands
    rcases Screen.seeAll_eraseLines stands.shows stands.row stands.ready with
      ⟨erased, erasedRows, isErased, inside⟩
    refine ⟨erased, erasedRows, isErased, ?_⟩
    intro row isRow
    have bounds := inside row isRow
    refine ⟨by simp [live], bounds.1, ?_⟩
    rw [rows, List.length_append]
    exact bounds.2

/-- Only the live text can be what the display does not write again. -/
theorem live_of_same {text : String} (agrees : display.Agrees screen seen)
    (same : text ++ "\n" = display.liveText) : seen.live = some text := by
  rw [agrees.text] at same
  rcases live : seen.live with _ | old
  · simp [live] at same
  · simp only [live, Option.map_some, Option.getD_some, String.append_left_inj] at same
    rw [same]

/-- An update that draws erases the live region and writes the text, whether it hides the cursor first
or not. -/
theorem watch_update {text : String} (ready : screen.pending = .none)
    (other : text ++ "\n" ≠ display.liveText) :
    screen.watch (display.perform (.update text)).1 =
      (screen.seeAll (eraseLines display.liveLines).toList).seeAll (text ++ "\n").toList := by
  simp only [Display.perform, Display.update, if_neg other]
  cases display.managesCursor && !display.hidden <;>
    simp [Screen.watch, Screen.seeAll_append, Screen.seeAll_hideCursor ready]

theorem perform_update {text : String} (agrees : display.Agrees screen seen)
    (showable : IsShowable text) :
    (display.perform (.update text)).2.Agrees (screen.watch (display.perform (.update text)).1)
        (seen.next (.update text)) ∧
      screen.ErasesOnly (screen.watch (display.perform (.update text)).1) seen.IsLiveRow := by
  by_cases same : text ++ "\n" = display.liveText
  · -- Nothing is written, and the text to be seen is the one that is seen already.
    have live := agrees.live_of_same same
    have unchanged : seen.next (.update text) = seen := by
      rw [Seen.next, ← live]
    have nothing : display.perform (.update text) = ([], display) := by
      simp [Display.perform, Display.update, same]
    rw [nothing, unchanged]
    exact ⟨agrees, Screen.erasesOnly_of_eq rfl⟩
  · rcases agrees.erase with ⟨erased, erasedRows, isErased, allowed⟩
    rcases erased.seeAll_text showable with ⟨written, kept⟩
    rw [watch_update agrees.stands.ready same]
    refine ⟨⟨?_, ?_, ?_⟩, erasedRows, by rw [kept, isErased], allowed⟩
    · have rows : (seen.next (.update text)).rows = seen.settledRows ++ textRows text := by
        simp [Seen.next, Seen.rows, Seen.settledRows, Seen.liveRows]
      rw [rows]
      exact written
    · simp [Display.perform, Display.update, same, Seen.next]
    · simp [Display.perform, Display.update, same, Seen.next, lineCount_eq]

theorem perform_final {text : String} (agrees : display.Agrees screen seen)
    (showable : IsShowable text) :
    (display.perform (.final text)).2.Agrees (screen.watch (display.perform (.final text)).1)
        (seen.next (.final text)) ∧
      screen.ErasesOnly (screen.watch (display.perform (.final text)).1) seen.IsLiveRow := by
  rcases agrees.stands.seeAll_text showable with ⟨written, kept⟩
  have rows : (seen.next (.final text)).rows = seen.rows ++ textRows text := by
    simp [Seen.next, Seen.rows, Seen.settledRows, Seen.liveRows]
  refine ⟨⟨?_, rfl, rfl⟩, Screen.erasesOnly_of_eq kept⟩
  rw [rows]
  exact written

/-- One event keeps the display, the screen and what is to be seen in agreement, and only live rows are
erased. -/
theorem perform {event : PlayEvent} (agrees : display.Agrees screen seen)
    (showable : event.IsShowable) :
    (display.perform event).2.Agrees (screen.watch (display.perform event).1) (seen.next event) ∧
      screen.ErasesOnly (screen.watch (display.perform event).1) seen.IsLiveRow := by
  cases event with
  | update text => exact agrees.perform_update showable
  | final text => exact agrees.perform_final showable
  | sleep duration => exact ⟨agrees, Screen.erasesOnly_of_eq rfl⟩

theorem performAll {events : List PlayEvent} (agrees : display.Agrees screen seen)
    (showable : ∀ event ∈ events, event.IsShowable) :
    (display.performAll events).2.Agrees (screen.watch (display.performAll events).1)
      (seen.follow events) := by
  induction events generalizing display screen seen with
  | nil => exact agrees
  | cons event later ih =>
      rcases List.forall_mem_cons.mp showable with ⟨isShowable, laterShowable⟩
      have next := ih (agrees.perform isShowable).1 laterShowable
      rw [Display.performAll, Screen.watch_append]
      exact next

end Display.Agrees

namespace Display

theorem agrees_start (managesCursor : Bool) : Agrees { managesCursor } .blank .nothing :=
  ⟨Screen.blank_standsAfter, rfl, rfl⟩

/-- The screen that saw what a display wrote when it performed some events from its start. -/
def screenOf (managesCursor : Bool) (events : List PlayEvent) : Screen :=
  Screen.blank.watch (({ managesCursor } : Display).performAll events).1

/-- The screen shows what is to be seen of some events and nothing else, with the cursor in the first
column of the row below it, and another event erases only rows of the live region. -/
structure IsRedrawn (managesCursor : Bool) (events : List PlayEvent) : Prop where
  shows : (screenOf managesCursor events).Shows (Seen.nothing.follow events).rows
  row : (screenOf managesCursor events).row = (Seen.nothing.follow events).rows.length
  column : (screenOf managesCursor events).column = 0
  erases : ∀ event : PlayEvent, event.IsShowable →
    (screenOf managesCursor events).ErasesOnly (screenOf managesCursor (events ++ [event]))
      (Seen.nothing.follow events).IsLiveRow

theorem performAll_isRedrawn (managesCursor : Bool) (events : List PlayEvent)
    (showable : ∀ event ∈ events, event.IsShowable) : IsRedrawn managesCursor events := by
  have agrees := (agrees_start managesCursor).performAll showable
  refine ⟨?_, agrees.stands.row, agrees.stands.column, ?_⟩
  · exact Screen.shows_append_nil.mp agrees.stands.shows
  · intro event isShowable
    have split : screenOf managesCursor (events ++ [event]) =
        (screenOf managesCursor events).watch
          ((({ managesCursor } : Display).performAll events).2.perform event).1 := by
      rw [screenOf, performAll_append, Screen.watch_append, ← screenOf]
      simp [performAll]
    rw [split]
    exact (agrees.perform isShowable).2

/-- A shorter text over a longer one, a final text, and a painted text below it. -/
theorem performAll_isRedrawn_shorter :
    ∃ events : List PlayEvent,
      events = [.update "a\nb", .update "c", .final "d", .update "\x1b[38;2;9;8;7mred\x1b[39m"] ∧
        (∀ event ∈ events, event.IsShowable) ∧
          (Seen.nothing.follow events).rows = ["c".toList, "d".toList, "red".toList] ∧
            IsRedrawn true events := by
  have longer : withoutColors "a\nb".toList = "a\nb".toList := by cbv
  have shorter : withoutColors "c".toList = "c".toList := by cbv
  have final : withoutColors "d".toList = "d".toList := by cbv
  have painted : withoutColors "\x1b[38;2;9;8;7mred\x1b[39m".toList = "red".toList := by cbv
  have showable : ∀ event ∈
      ([.update "a\nb", .update "c", .final "d", .update "\x1b[38;2;9;8;7mred\x1b[39m"] :
        List PlayEvent), event.IsShowable := by
    simp only [List.forall_mem_cons, PlayEvent.IsShowable, IsShowable, longer, shorter, final, painted]
    simp [isControl]
  refine ⟨_, rfl, showable, ?_, performAll_isRedrawn true _ showable⟩
  simp only [Seen.follow, Seen.nothing, Seen.next, Seen.rows, Seen.settledRows, Seen.liveRows,
    List.foldl_cons, List.foldl_nil, Option.toList_some, List.nil_append, List.flatMap_append,
    List.flatMap_singleton, textRows, shorter, final, painted]
  rfl

end Display

end TermScene
