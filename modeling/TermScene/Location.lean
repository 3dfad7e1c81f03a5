/-!
# Places in a program

A place is given by its line and column, counted from one, by its offset, counted from zero, and by
the name of the file if there is one. A `Cursor` is the place of the next character while a text is
being read.
-/

namespace TermScene

/-- A place in the text of a program. -/
structure Location where
  line : Int
  column : Int
  offset : Int := 0
  filename : Option String := none
  deriving DecidableEq, Repr

namespace Location

/-- A place as it is shown: the name of the file, unless it is empty, the line and the column. -/
def describe (location : Location) : String :=
  let place := toString location.line ++ ":" ++ toString location.column
  match location.filename with
  | some filename => if filename = "" then place else filename ++ ":" ++ place
  | none => place

end Location

/-- The place of the next character of a text. -/
structure Cursor where
  line : Nat
  column : Nat
  offset : Nat
  deriving DecidableEq, Repr

namespace Cursor

def start : Cursor := ⟨1, 1, 0⟩

/-- The place after a character: a newline starts the next line. -/
def step (cursor : Cursor) (char : Char) : Cursor :=
  if char = '\n' then ⟨cursor.line + 1, 1, cursor.offset + 1⟩
  else ⟨cursor.line, cursor.column + 1, cursor.offset + 1⟩

def advance (cursor : Cursor) (chars : List Char) : Cursor := chars.foldl step cursor

def location (cursor : Cursor) (filename : Option String) : Location :=
  ⟨cursor.line, cursor.column, cursor.offset, filename⟩

@[simp]
theorem advance_nil (cursor : Cursor) : cursor.advance [] = cursor := rfl

@[simp]
theorem advance_cons (cursor : Cursor) (char : Char) (rest : List Char) :
    cursor.advance (char :: rest) = (cursor.step char).advance rest := rfl

theorem advance_append (cursor : Cursor) (first second : List Char) :
    cursor.advance (first ++ second) = (cursor.advance first).advance second := by
  simp [advance]

@[simp]
theorem step_offset (cursor : Cursor) (char : Char) :
    (cursor.step char).offset = cursor.offset + 1 := by
  unfold step
  split <;> rfl

theorem advance_offset (cursor : Cursor) (chars : List Char) :
    (cursor.advance chars).offset = cursor.offset + chars.length := by
  induction chars generalizing cursor with
  | nil => rfl
  | cons char rest ih =>
      simp only [advance_cons, ih, step_offset, List.length_cons]
      omega

end Cursor

end TermScene
