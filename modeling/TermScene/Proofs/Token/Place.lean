import Mathlib.Data.List.Induction
import TermScene.Program.Parser

/-!
# Places from the text before them

The place of a character is settled by the text before it: the line is one more than the newlines in
it, and the column one more than the characters after the last of them. A cursor that passes over a text
ends in that place, and the place of the end of a program, which is found by cutting its text into
lines, is the same.
-/

namespace TermScene

/-- The line on which a text ends. -/
def lineAfter (before : List Char) : Nat := 1 + before.count '\n'

/-- The column in which a text ends: one more than the characters after its last newline. -/
def columnAfter (before : List Char) : Nat :=
  1 + (before.reverse.takeWhile (· ≠ '\n')).length

/-- The place just after a text. -/
def placeAfter (before : List Char) (filename : Option String) : Location :=
  ⟨lineAfter before, columnAfter before, before.length, filename⟩

namespace Cursor

theorem start_advance (before : List Char) :
    start.advance before = ⟨lineAfter before, columnAfter before, before.length⟩ := by
  induction before using List.reverseRecOn with
  | nil => rfl
  | append_singleton before char ih =>
      rw [advance_append, ih, advance_cons, advance_nil, step]
      by_cases newline : char = '\n'
      · simp [newline, lineAfter, columnAfter, List.count_append, Nat.add_assoc]
      · simp [newline, lineAfter, columnAfter, List.count_append, Nat.add_comm]

theorem start_advance_location (before : List Char) (filename : Option String) :
    (start.advance before).location filename = placeAfter before filename := by
  rw [start_advance]
  rfl

/-- Where a cursor gets by passing over a text, told from the pieces between its newlines. -/
theorem advance_eq_of_newlineParts {chars part : List Char} {later : List (List Char)}
    (cursor : Cursor) (parts : newlineParts chars = part :: later) :
    cursor.advance chars =
      ⟨cursor.line + later.length,
        match later.getLast? with
        | none => cursor.column + part.length
        | some last => last.length + 1,
        cursor.offset + chars.length⟩ := by
  induction chars generalizing cursor part later with
  | nil =>
      simp only [newlineParts, partsAt, List.foldr_nil, List.cons.injEq] at parts
      rcases parts with ⟨rfl, rfl⟩
      simp
  | cons char rest ih =>
      rcases restParts : newlineParts rest with _ | ⟨next, others⟩
      · exact absurd restParts (partsAt_ne_nil _ _)
      rw [advance_cons, ih (cursor.step char) restParts]
      by_cases newline : char = '\n'
      · subst newline
        rw [newlineParts, partsAt_separator, ← newlineParts, restParts] at parts
        simp only [List.cons.injEq] at parts
        rcases parts with ⟨rfl, rfl⟩
        cases last : others.getLast? <;>
          simp [step, List.getLast?_cons, last] <;> omega
      · rw [newlineParts, partsAt_cons_of_ne newline restParts] at parts
        simp only [List.cons.injEq] at parts
        rcases parts with ⟨rfl, rfl⟩
        cases last : others.getLast? <;> simp [step, newline] <;> omega

end Cursor

theorem Parser.finishLocation_of_source {source : String} (nonempty : source ≠ "")
    (tokens : List Token) (filename : String) :
    finishLocation tokens source filename = some (placeAfter source.toList filename) := by
  rcases parts : newlineParts source.toList with _ | ⟨part, later⟩
  · exact absurd parts (partsAt_ne_nil _ _)
  have place := Cursor.start.advance_eq_of_newlineParts parts
  rw [Cursor.start_advance] at place
  simp only [Cursor.mk.injEq, Cursor.start] at place
  rcases place with ⟨line, column, offset⟩
  simp only [finishLocation, nonempty, ↓reduceIte, parts, placeAfter, line, column]
  cases last : later.getLast? <;> simp [List.getLast?_cons, last, Nat.add_comm, String.length_toList]

end TermScene
