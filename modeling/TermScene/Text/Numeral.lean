import TermScene.Text.Blank
import TermScene.Text.Digit

/-!
# Digits in running text

What integer and decimal notation share: blanks around a number do not count, a number may carry a
sign, and a single underscore may stand between two digits to group them.
-/

namespace TermScene

/-- The text without the blanks before and after it. -/
def trimPadding (chars : List Char) : List Char :=
  ((chars.dropWhile isNumberPadding).reverse.dropWhile isNumberPadding).reverse

def isDigit (char : Char) : Bool := (digitValue? char).isSome

/-- The text without its grouping underscores; there is none if an underscore does not stand between
two digits. `afterDigit` says whether a digit comes before the text. -/
def ungroup? (afterDigit : Bool) : List Char → Option (List Char)
  | [] => some []
  | '_' :: next :: rest =>
      if afterDigit && isDigit next then (ungroup? true rest).map (next :: ·) else none
  | '_' :: [] => none
  | char :: rest => (ungroup? (isDigit char) rest).map (char :: ·)

/-- The values of the leading digits, and the rest of the text. -/
def takeDigits : List Char → List Nat × List Char
  | [] => ([], [])
  | char :: rest =>
      match digitValue? char with
      | some value =>
          let (values, tail) := takeDigits rest
          (value :: values, tail)
      | none => ([], char :: rest)

def ofDigits (values : List Nat) : Nat :=
  values.foldl (fun number value => 10 * number + value) 0

/-- Whether a leading sign is a minus, and the text after the sign. -/
def takeSign : List Char → Bool × List Char
  | '-' :: rest => (true, rest)
  | '+' :: rest => (false, rest)
  | chars => (false, chars)

/-- The most digits that an integer in text may have. -/
def integerDigitLimit : Nat := 4300

/-- The integer that a text writes: digits of any script with an optional sign. -/
def readInteger? (text : String) : Option Int := do
  let chars ← ungroup? false (trimPadding text.toList)
  let (negative, body) := takeSign chars
  match takeDigits body with
  | ([], _) => none
  | (values, []) =>
      if integerDigitLimit < values.length then none
      else some (if negative then -(ofDigits values : Int) else (ofDigits values : Int))
  | (_, _ :: _) => none

end TermScene
