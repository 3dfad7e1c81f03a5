import TermScene.Text.Digit

/-!
# Colours

A colour is written as a name of the palette, in any case, or as hexadecimal digits with or without a
mark before them. Quotes in it do not count. Every text has a colour: where no run of digits can be
found the colour is black.
-/

namespace TermScene

/-- The amounts of red, green and blue in a colour, each up to 255. -/
structure Rgb where
  red : Nat
  green : Nat
  blue : Nat
  deriving DecidableEq, Repr

namespace Palette

def entries : List (String × String) :=
  [("black", "#000000"), ("red", "#ff0000"), ("green", "#00ff00"), ("blue", "#0000ff"),
    ("yellow", "#ffff00"), ("magenta", "#ff00ff"), ("cyan", "#00ffff"), ("white", "#ffffff"),
    ("gray", "#808080"), ("orange", "#ffa500"), ("purple", "#800080"), ("pink", "#ffc0cb"),
    ("brown", "#a52a2a"), ("lime", "#00ff00"), ("navy", "#000080"), ("teal", "#008080")]

/-- A character in lower case, as far as names of colours can tell: the letters of ASCII, and the
Kelvin sign, whose lower case is the letter `k`. -/
def lowerChar (char : Char) : Char := if char = '\u212a' then 'k' else char.toLower

def find? (name : String) : Option String :=
  let lowered := String.ofList (name.toList.map lowerChar)
  (entries.find? fun entry => entry.1 = lowered).map Prod.snd

end Palette

namespace Color

/-- A colour as it was written, without its quotes. -/
def unquoted (color : String) : String := String.ofList (color.toList.filter (· ≠ '"'))

/-- The hexadecimal form of a colour: that of a name, or the text itself behind a mark. -/
def resolve (color : String) : String :=
  let plain := unquoted color
  match Palette.find? plain with
  | some hex => hex
  | none => if plain.toList.head? = some '#' then plain else "#" ++ plain

/-- The values of so many hexadecimal digits at the front of a text. -/
def leadingHex (chars : List Char) : Nat → Option (List Nat)
  | 0 => some []
  | count + 1 =>
      match chars with
      | [] => none
      | char :: rest =>
          match hexValue? char, leadingHex rest count with
          | some value, some values => some (value :: values)
          | _, _ => none

/-- The first six hexadecimal digits in a row, or the first three, each doubled, if they come earlier. -/
def findHex? : List Char → Option (List Nat)
  | [] => none
  | char :: rest =>
      match leadingHex (char :: rest) 6 with
      | some values => some values
      | none =>
          match leadingHex (char :: rest) 3 with
          | some values => some (values.flatMap fun value => [value, value])
          | none => findHex? rest

def rgbOfHex (hex : String) : Rgb :=
  match findHex? hex.toList with
  | some [r1, r2, g1, g2, b1, b2] => ⟨16 * r1 + r2, 16 * g1 + g2, 16 * b1 + b2⟩
  | _ => ⟨0, 0, 0⟩

def rgb (color : String) : Rgb := rgbOfHex (resolve color)

end Color

end TermScene
