/-!
# Lines of text

Two notions of a line are in use. Places in a program count newline characters only, and
`newlineParts` cuts a text there. An editor and an excerpt of a program end a line at every line
break of Unicode, a carriage return with a newline being one break, and `textLines` cuts a text so.
-/

namespace TermScene

/-- The pieces of a text between the occurrences of a separator: one more than there are of it. -/
def partsAt (separator : Char) (chars : List Char) : List (List Char) :=
  chars.foldr
    (fun char parts =>
      if char = separator then [] :: parts
      else
        match parts with
        | part :: later => (char :: part) :: later
        | [] => [[char]])
    [[]]

def newlineParts (chars : List Char) : List (List Char) := partsAt '\n' chars

def isLineBreak (char : Char) : Bool :=
  let point := char.toNat
  (0xa ≤ point && point ≤ 0xd) || (0x1c ≤ point && point ≤ 0x1e) || point == 0x85 ||
    point == 0x2028 || point == 0x2029

/-- The lines of a text, without what ends them. A line break at the very end starts no new line. -/
def textLines : List Char → List (List Char)
  | [] => []
  | '\r' :: '\n' :: rest => [] :: textLines rest
  | char :: rest =>
      if isLineBreak char then [] :: textLines rest
      else
        match textLines rest with
        | line :: later => (char :: line) :: later
        | [] => [[char]]

/-- The text with every carriage return, alone or before a newline, read as a newline. -/
def withNewlines : List Char → List Char
  | [] => []
  | '\r' :: '\n' :: rest => '\n' :: withNewlines rest
  | '\r' :: rest => '\n' :: withNewlines rest
  | char :: rest => char :: withNewlines rest

theorem partsAt_ne_nil (separator : Char) (chars : List Char) : partsAt separator chars ≠ [] := by
  cases chars with
  | nil => simp [partsAt]
  | cons char rest =>
      simp only [partsAt, List.foldr_cons]
      split
      · simp
      · split <;> simp

@[simp]
theorem partsAt_separator (separator : Char) (rest : List Char) :
    partsAt separator (separator :: rest) = [] :: partsAt separator rest := by
  simp [partsAt]

theorem partsAt_cons_of_ne {separator char : Char} {rest part : List Char} {later : List (List Char)}
    (other : char ≠ separator) (parts : partsAt separator rest = part :: later) :
    partsAt separator (char :: rest) = (char :: part) :: later := by
  simp only [partsAt, List.foldr_cons, other, ↓reduceIte] at parts ⊢
  rw [parts]

@[simp]
theorem textLines_nil : textLines [] = [] := rfl

end TermScene
