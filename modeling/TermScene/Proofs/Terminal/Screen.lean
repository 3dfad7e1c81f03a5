import Mathlib.Data.List.Induction
import TermScene.Proofs.Terminal.Codes
import TermScene.Proofs.Token.Pattern
import TermScene.Terminal.Display

/-!
# A terminal screen

A terminal without bounds reads characters one by one. A character to be shown goes into the cell of the
cursor, a newline starts the next row, and three control codes erase the row of the cursor, move it up
and move it to the first column; every other code does nothing. The screen also keeps which rows were
ever erased.

The cursor always stands behind what was shown last, so the state of a screen is told by its rows:
`StandsAfter done current` says that the rows are those of `done` and then `current`, which the cursor is
in.
-/

namespace TermScene

/-- What a terminal has read of a control code. -/
inductive Pending where
  | none
  | escape
  | code (parameters : List Char)

/-- The cells of a terminal, its cursor, and the rows that were erased in turn. -/
structure Screen where
  cell : Nat → Nat → Char
  row : Nat
  column : Nat
  pending : Pending
  erased : List Nat

namespace Screen

open Terminal

def blank : Screen := ⟨fun _ _ => ' ', 0, 0, .none, []⟩

def put (screen : Screen) (char : Char) : Screen :=
  { screen with
    cell := fun row column =>
      if row = screen.row ∧ column = screen.column then char else screen.cell row column
    column := screen.column + 1 }

def eraseRow (screen : Screen) : Screen :=
  { screen with
    cell := fun row column => if row = screen.row then ' ' else screen.cell row column
    erased := screen.erased ++ [screen.row] }

/-- What a control code with given parameters and final letter does. -/
def obey (screen : Screen) (parameters : List Char) (final : Char) : Screen :=
  match parameters, final with
  | ['2'], 'K' => screen.eraseRow
  | ['1'], 'A' => { screen with row := screen.row - 1 }
  | [], 'G' => { screen with column := 0 }
  | _, _ => screen

/-- A character that may stand before the final letter of a control code. -/
def isParameter (char : Char) : Bool := 0x30 ≤ char.toNat && char.toNat ≤ 0x3f

def see (screen : Screen) (char : Char) : Screen :=
  match screen.pending with
  | .none =>
      if char = '\x1b' then { screen with pending := .escape }
      else if char = '\n' then { screen with row := screen.row + 1, column := 0 }
      else if isControl char then screen
      else screen.put char
  | .escape => { screen with pending := if char = '[' then .code [] else .none }
  | .code parameters =>
      if isParameter char then { screen with pending := .code (parameters ++ [char]) }
      else { screen with pending := .none }.obey parameters char

def seeAll (screen : Screen) (chars : List Char) : Screen := chars.foldl see screen

variable {screen : Screen}

@[simp]
theorem seeAll_nil (screen : Screen) : screen.seeAll [] = screen := rfl

@[simp]
theorem seeAll_cons (screen : Screen) (char : Char) (rest : List Char) :
    screen.seeAll (char :: rest) = (screen.see char).seeAll rest := rfl

theorem seeAll_append (screen : Screen) (first second : List Char) :
    screen.seeAll (first ++ second) = (screen.seeAll first).seeAll second := by
  simp [seeAll]

section Codes

theorem seeAll_parameters {parameters : List Char}
    (areParameters : ∀ char ∈ parameters, isParameter char = true) (before : List Char) :
    { screen with pending := .code before }.seeAll parameters =
      { screen with pending := .code (before ++ parameters) } := by
  induction parameters generalizing before with
  | nil => simp
  | cons char later ih =>
      rcases List.forall_mem_cons.mp areParameters with ⟨isParameter, areLater⟩
      have seen : { screen with pending := .code before }.see char =
          { screen with pending := .code (before ++ [char]) } := by
        simp [see, isParameter]
      rw [seeAll_cons, seen, ih areLater, List.append_assoc, List.singleton_append]

/-- A control code is obeyed when its final letter is read. -/
theorem seeAll_code {parameters : List Char} {final : Char} (ready : screen.pending = .none)
    (areParameters : ∀ char ∈ parameters, isParameter char = true)
    (ends : isParameter final = false) :
    screen.seeAll ('\x1b' :: '[' :: (parameters ++ [final])) = screen.obey parameters final := by
  have opened : (screen.see '\x1b').see '[' = { screen with pending := .code [] } := by
    simp [see, ready]
  have unchanged : { screen with pending := .none } = screen := by
    rw [← ready]
  rw [seeAll_cons, seeAll_cons, opened, seeAll_append, seeAll_parameters areParameters]
  simp [see, ends, unchanged]

theorem seeAll_eraseLine (ready : screen.pending = .none) :
    screen.seeAll eraseLine.toList = screen.eraseRow := by
  have isCode : eraseLine.toList = '\x1b' :: '[' :: (['2'] ++ ['K']) := rfl
  rw [isCode, seeAll_code ready (by simp [isParameter]) rfl, obey]

theorem seeAll_cursorUp (ready : screen.pending = .none) :
    screen.seeAll cursorUp.toList = { screen with row := screen.row - 1 } := by
  have isCode : cursorUp.toList = '\x1b' :: '[' :: (['1'] ++ ['A']) := rfl
  rw [isCode, seeAll_code ready (by simp [isParameter]) rfl, obey]

theorem seeAll_cursorLeft (ready : screen.pending = .none) :
    screen.seeAll cursorLeft.toList = { screen with column := 0 } := by
  have isCode : cursorLeft.toList = '\x1b' :: '[' :: ([] ++ ['G']) := rfl
  rw [isCode, seeAll_code ready (by simp [isParameter]) rfl, obey]

theorem seeAll_hideCursor (ready : screen.pending = .none) :
    screen.seeAll hideCursor.toList = screen := by
  have isCode : hideCursor.toList = '\x1b' :: '[' :: (['?', '2', '5'] ++ ['l']) := rfl
  rw [isCode, seeAll_code ready (by simp [isParameter]) rfl]
  rfl

theorem isParameter_of_isColorParameter {char : Char} (isColor : isColorParameter char = true) :
    isParameter char = true := by
  rw [isColorParameter, Bool.or_eq_true, beq_iff_eq] at isColor
  rcases isColor with isDigit | rfl
  · have bounds := toNat_of_isDigit isDigit
    simp only [isParameter, Bool.and_eq_true, decide_eq_true_eq]
    omega
  · decide

/-- Colour codes do nothing. -/
theorem seeAll_color {parameters : List Char} (ready : screen.pending = .none)
    (areParameters : ∀ char ∈ parameters, isColorParameter char = true) :
    screen.seeAll ('\x1b' :: '[' :: (parameters ++ ['m'])) = screen := by
  have inRange : ∀ char ∈ parameters, isParameter char = true :=
    fun char inside => isParameter_of_isColorParameter (areParameters char inside)
  rw [seeAll_code ready inRange rfl]
  unfold obey
  split <;> first | rfl | simp_all

end Codes

/-- The character in a cell of rows that are shown from the top: where there is none, a space. -/
def cellOf (rows : List (List Char)) (row column : Nat) : Char :=
  ((rows[row]?.getD [])[column]?).getD ' '

/-- The screen shows some rows from the top, and nothing else. -/
def Shows (screen : Screen) (rows : List (List Char)) : Prop :=
  ∀ row column, screen.cell row column = cellOf rows row column

/-- The cursor is behind the last of the rows that are shown. -/
structure StandsAfter (screen : Screen) (done : List (List Char)) (current : List Char) : Prop where
  shows : screen.Shows (done ++ [current])
  row : screen.row = done.length
  column : screen.column = current.length
  ready : screen.pending = .none

section Rows

variable {done : List (List Char)} {current : List Char}

theorem cellOf_last (done : List (List Char)) (current : List Char) (column : Nat) :
    cellOf (done ++ [current]) done.length column = (current[column]?).getD ' ' := by
  simp [cellOf]

theorem cellOf_length (rows : List (List Char)) (column : Nat) :
    cellOf rows rows.length column = ' ' := by
  simp [cellOf]

theorem getElem?_concat_of_ne {α : Type} {items : List α} {index : Nat}
    (other : index ≠ items.length) (item : α) : (items ++ [item])[index]? = items[index]? := by
  rcases Nat.lt_or_gt_of_ne other with inside | beyond
  · exact List.getElem?_append_left inside
  · have outside : (items ++ [item]).length ≤ index := by
      rw [List.length_append, List.length_singleton]
      omega
    rw [List.getElem?_eq_none outside, List.getElem?_eq_none (Nat.le_of_lt beyond)]

theorem cellOf_of_ne_last {row : Nat} (other : row ≠ done.length) (column : Nat) :
    cellOf (done ++ [current]) row column = cellOf done row column := by
  rw [cellOf, getElem?_concat_of_ne other, ← cellOf]

/-- An empty row at the end is not seen. -/
theorem shows_append_nil : screen.Shows (done ++ [[]]) ↔ screen.Shows done := by
  have same : ∀ row column, cellOf (done ++ [[]]) row column = cellOf done row column := by
    intro row column
    by_cases last : row = done.length
    · rw [last, cellOf_last, cellOf_length]
      rfl
    · exact cellOf_of_ne_last last column
  simp only [Shows, same]

theorem blank_standsAfter : blank.StandsAfter [] [] := by
  refine ⟨shows_append_nil.mpr ?_, rfl, rfl, rfl⟩
  intro row column
  simp [cellOf, blank]

theorem Shows.eraseRow (shows : screen.Shows (done ++ [current])) (isLast : screen.row = done.length) :
    screen.eraseRow.Shows done := by
  intro row column
  by_cases last : row = done.length
  · rw [last, cellOf_length, Screen.eraseRow, isLast]
    simp
  · rw [← cellOf_of_ne_last last, ← shows row column, Screen.eraseRow, isLast]
    simp [last]

theorem StandsAfter.put (stands : screen.StandsAfter done current) (char : Char) :
    (screen.put char).StandsAfter done (current ++ [char]) := by
  refine ⟨?_, stands.row, ?_, stands.ready⟩
  · intro row column
    simp only [Screen.put, stands.row, stands.column]
    by_cases last : row = done.length
    · subst last
      rw [stands.shows, cellOf_last, cellOf_last]
      by_cases next : column = current.length
      · simp [next]
      · rw [if_neg (by omega), getElem?_concat_of_ne next]
    · rw [if_neg (by omega), stands.shows, cellOf_of_ne_last last, cellOf_of_ne_last last]
  · rw [Screen.put, stands.column, List.length_append, List.length_singleton]

theorem StandsAfter.newline (stands : screen.StandsAfter done current) :
    (screen.see '\n').StandsAfter (done ++ [current]) [] := by
  have seen : screen.see '\n' = { screen with row := screen.row + 1, column := 0 } := by
    simp [see, stands.ready]
  rw [seen]
  refine ⟨shows_append_nil.mpr stands.shows, ?_, rfl, stands.ready⟩
  simp [stands.row]

theorem see_eq_put {char : Char} (ready : screen.pending = .none) (shown : isControl char = false) :
    screen.see char = screen.put char := by
  have notEscape : char ≠ '\x1b' := by
    rintro rfl
    exact absurd shown (by decide)
  have notNewline : char ≠ '\n' := by
    rintro rfl
    exact absurd shown (by decide)
  simp [see, ready, notEscape, notNewline, shown]

theorem see_newline_erased (ready : screen.pending = .none) :
    (screen.see '\n').erased = screen.erased := by
  simp [see, ready]

end Rows

section Texts

/-- Characters with a newline behind them are shown in rows, the first of which goes on where the cursor
is. Nothing is erased. -/
theorem StandsAfter.seeAll_line {chars part current : List Char} {done later : List (List Char)}
    (stands : screen.StandsAfter done current)
    (showable : ∀ char ∈ withoutColors chars, char = '\n' ∨ isControl char = false)
    (parts : newlineParts (withoutColors chars) = part :: later) :
    (screen.seeAll (chars ++ ['\n'])).StandsAfter (done ++ (current ++ part) :: later) [] ∧
      (screen.seeAll (chars ++ ['\n'])).erased = screen.erased := by
  -- The induction follows the codes: one is passed over whole, any other character moves the cursor.
  fun_induction withoutColors chars generalizing screen done current part later with
  | case1 =>
      simp only [newlineParts, partsAt, List.foldr_nil, List.cons.injEq] at parts
      rcases parts with ⟨rfl, rfl⟩
      rw [List.append_nil]
      exact ⟨stands.newline, see_newline_erased stands.ready⟩
  | case2 char rest behind found ih =>
      rcases afterColor?_eq_some found with ⟨parameters, areParameters, isCode⟩
      have split : char :: rest ++ ['\n'] =
          '\x1b' :: '[' :: (parameters ++ ['m']) ++ (behind ++ ['\n']) := by simp [isCode]
      rw [split, seeAll_append, seeAll_color stands.ready areParameters]
      exact ih stands showable parts
  | case3 char rest notFound ih =>
      rcases List.forall_mem_cons.mp showable with ⟨isShowable, restShowable⟩
      rcases restParts : newlineParts (withoutColors rest) with _ | ⟨next, others⟩
      · exact absurd restParts (partsAt_ne_nil _ _)
      rw [List.cons_append, seeAll_cons]
      by_cases newline : char = '\n'
      · subst newline
        rw [newlineParts, partsAt_separator, ← newlineParts, restParts] at parts
        simp only [List.cons.injEq] at parts
        rcases parts with ⟨rfl, rfl⟩
        rw [← see_newline_erased stands.ready]
        simpa using ih stands.newline restShowable restParts
      · have shown := isShowable.resolve_left newline
        rw [newlineParts, partsAt_cons_of_ne newline restParts] at parts
        simp only [List.cons.injEq] at parts
        rcases parts with ⟨rfl, rfl⟩
        have seen := ih (stands.put char) restShowable restParts
        rw [List.append_assoc, List.singleton_append] at seen
        rw [see_eq_put stands.ready shown]
        exact seen

theorem eraseLines_one : eraseLines 1 = eraseLine ++ cursorLeft := by
  simp [eraseLines]

theorem eraseLines_succ (count : Nat) :
    eraseLines (count + 2) = eraseLine ++ cursorUp ++ eraseLines (count + 1) := by
  simp [eraseLines, List.replicate_succ, String.append_assoc]

/-- Erasing the rows of a region from the row of the cursor upwards leaves the rows above it. -/
theorem seeAll_eraseLines {done lines : List (List Char)} {current : List Char}
    (shows : screen.Shows (done ++ lines ++ [current])) (row : screen.row = (done ++ lines).length)
    (ready : screen.pending = .none) :
    (screen.seeAll (eraseLines (lines.length + 1)).toList).StandsAfter done [] ∧
      ∃ rows, (screen.seeAll (eraseLines (lines.length + 1)).toList).erased = screen.erased ++ rows ∧
        ∀ row ∈ rows, done.length ≤ row ∧ row ≤ done.length + lines.length := by
  have erasedReady : screen.eraseRow.pending = .none := ready
  -- The cursor is in the last row that is shown, so that erasing it leaves the rows above, and moving
  -- up brings the cursor into the last of these.
  induction lines using List.reverseRecOn generalizing screen current with
  | nil =>
      rw [List.append_nil] at shows row
      rw [List.length_nil, eraseLines_one, String.toList_append, seeAll_append,
        seeAll_eraseLine ready, seeAll_cursorLeft erasedReady]
      refine ⟨⟨shows_append_nil.mpr (shows.eraseRow row), row, rfl, ready⟩, [screen.row], rfl, ?_⟩
      intro erasedRow isRow
      rw [List.mem_singleton] at isRow
      omega
  | append_singleton lines last ih =>
      let moved : Screen := { screen.eraseRow with row := screen.eraseRow.row - 1 }
      have seen : screen.seeAll (eraseLine ++ cursorUp).toList = moved := by
        rw [String.toList_append, seeAll_append, seeAll_eraseLine ready, seeAll_cursorUp erasedReady]
      have movedShows : moved.Shows (done ++ lines ++ [last]) := by
        have above := shows.eraseRow row
        rwa [← List.append_assoc] at above
      have movedRow : moved.row = (done ++ lines).length := by
        have isRow : moved.row = screen.row - 1 := rfl
        rw [isRow, row]
        simp
      have length : (lines ++ [last]).length = lines.length + 1 := by simp
      rcases ih movedShows movedRow ready ready with ⟨stands, rows, erased, inside⟩
      rw [length, eraseLines_succ, String.toList_append, seeAll_append, seen]
      refine ⟨stands, screen.row :: rows, ?_, ?_⟩
      · rw [erased]
        simp [moved, eraseRow]
      · rw [List.length_append, length] at row
        intro erasedRow isRow
        rcases List.mem_cons.mp isRow with rfl | isLater
        · omega
        · have := inside erasedRow isLater
          omega

end Texts

end Screen

end TermScene
