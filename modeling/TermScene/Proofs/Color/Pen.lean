import TermScene.Proofs.Color.Uncolored
import TermScene.Proofs.Text.Parts

/-!
# The colours of a terminal

A terminal that reads a text keeps two colours, one for the characters and one for what is behind them,
and each of them may be the default one. A colour code changes them, and every other character is
displayed in them.

Text that is painted leaves the colours as they were, and none of them is on at a newline. So does text
that is painted over a background, which is closed and opened again around newlines in its turn. What
is displayed of such a text is told here by its *inks*: its characters, each with the colour it is to
have, if any.
-/

namespace TermScene

open Terminal

/-- The colours that a terminal displays characters in; none is the default colour. -/
structure Pen where
  foreground : Option Rgb := none
  background : Option Rgb := none
  deriving DecidableEq

structure Cell where
  char : Char
  foreground : Option Rgb
  background : Option Rgb
  deriving DecidableEq

/-- What a terminal displays of a text, and its colours after that. -/
structure Displayed where
  cells : List Cell
  pen : Pen
  deriving DecidableEq

def Displayed.after (cells : List Cell) (displayed : Displayed) : Displayed :=
  { displayed with cells := cells ++ displayed.cells }

theorem Displayed.after_after (first second : List Cell) (displayed : Displayed) :
    (displayed.after second).after first = displayed.after (first ++ second) := by
  simp [after]

namespace Pen

def put (pen : Pen) (layer : Layer) (color : Option Rgb) : Pen :=
  match layer with
  | .foreground => { pen with foreground := color }
  | .background => { pen with background := color }

/-- Obeys a colour code, told by its numbers. Other codes do nothing. -/
def obey (pen : Pen) (numbers : List Nat) : Pen :=
  match numbers with
  | [38, 2, red, green, blue] => pen.put .foreground (some ⟨red, green, blue⟩)
  | [48, 2, red, green, blue] => pen.put .background (some ⟨red, green, blue⟩)
  | [39] => pen.put .foreground none
  | [49] => pen.put .background none
  | _ => pen

def numbers (parameters : List Char) : List Nat :=
  (partsAt ';' parameters).map fun digits => Nat.ofDigitChars 10 digits 0

/-- Reads a text: a colour code changes the colours, and any other character is displayed. -/
def read (pen : Pen) (chars : List Char) : Displayed :=
  match chars with
  | [] => ⟨[], pen⟩
  | char :: rest =>
      match _found : afterColor? (char :: rest) with
      | some later => (pen.obey (numbers ((rest.drop 1).takeWhile isColorParameter))).read later
      | none => (pen.read rest).after [⟨char, pen.foreground, pen.background⟩]
  termination_by chars.length
  decreasing_by
    · rcases afterColor?_eq_some _found with ⟨parameters, -, isCode⟩
      rw [isCode]
      simp only [List.length_cons, List.length_append]
      omega
    · simp

variable (pen : Pen)

theorem read_cons_of_ne {char : Char} (differs : char ≠ '\x1b') (rest : List Char) :
    pen.read (char :: rest) = (pen.read rest).after [⟨char, pen.foreground, pen.background⟩] := by
  rw [read]
  split
  · rename_i found
    rcases afterColor?_eq_some found with ⟨parameters, -, isCode⟩
    exact absurd (List.cons.inj isCode).1 differs
  · rfl

theorem read_code {parameters : List Char}
    (areParameters : ∀ char ∈ parameters, isColorParameter char = true) (rest : List Char) :
    pen.read ('\x1b' :: '[' :: (parameters ++ ['m']) ++ rest) =
      (pen.obey (numbers parameters)).read rest := by
  have isCode := afterColor?_code areParameters rest
  have before : ('[' :: (parameters ++ 'm' :: rest)).drop 1 = parameters ++ 'm' :: rest := rfl
  have taken : (parameters ++ 'm' :: rest).takeWhile isColorParameter = parameters := by
    rw [List.takeWhile_append_of_pos areParameters]
    simp [isColorParameter]
  have text : '\x1b' :: '[' :: (parameters ++ ['m']) ++ rest =
      '\x1b' :: '[' :: (parameters ++ 'm' :: rest) := by simp
  rw [text, read]
  split
  · rename_i found
    rw [isCode, Option.some.injEq] at found
    rw [before, taken, found]
  · rename_i none
    simp [isCode] at none

end Pen

namespace Layer

variable (layer : Layer) (color : Rgb) (pen : Pen) (rest : List Char)

theorem numbers_parameters :
    Pen.numbers (layer.parameters color) =
      [Nat.ofDigitChars 10 layer.setCode.toList 0, 2, color.red, color.green, color.blue] := by
  have apart (value : ℕ) : ';' ∉ Nat.toDigits 10 value := by
    intro inside
    exact absurd (Nat.isDigit_of_mem_toDigits (by decide) (by decide) inside) (by decide)
  have apartSet : ';' ∉ layer.setCode.toList := by cases layer <;> decide
  have two : partsAt ';' ('2' :: ';' :: (Nat.toDigits 10 color.red ++ ';' ::
      (Nat.toDigits 10 color.green ++ ';' :: Nat.toDigits 10 color.blue))) =
      ['2'] :: partsAt ';' (Nat.toDigits 10 color.red ++ ';' ::
        (Nat.toDigits 10 color.green ++ ';' :: Nat.toDigits 10 color.blue)) :=
    partsAt_cons_of_ne (by decide) (partsAt_separator _ _)
  rw [Pen.numbers, parameters, partsAt_append apartSet, two, partsAt_append (apart _),
    partsAt_append (apart _), partsAt_of_not_mem (apart _)]
  simp only [List.map_cons, List.map_nil, Nat.ofDigitChars_ten_toDigits]
  rfl

theorem read_openCode :
    pen.read ((layer.openCode color).toList ++ rest) = (pen.put layer (some color)).read rest := by
  rw [toList_openCode, pen.read_code (layer.isColorParameter_of_mem_parameters color),
    numbers_parameters]
  cases layer <;> rfl

theorem read_closeCode :
    pen.read (layer.closeCode.toList ++ rest) = (pen.put layer none).read rest := by
  cases layer
  · have areDigits : ∀ char ∈ ['3', '9'], isColorParameter char = true := List.all_eq_true.mp rfl
    exact pen.read_code areDigits rest
  · have areDigits : ∀ char ∈ ['4', '9'], isColorParameter char = true := List.all_eq_true.mp rfl
    exact pen.read_code areDigits rest

end Layer

end TermScene
