import TermScene.Binary64.Arithmetic
import TermScene.Text.Numeral

/-!
# Decimal notation of doubles, read

A decimal numeral stands for a rational number, and reads as the double nearest to it. The words for
an infinity and for no number are read in any case.
-/

namespace TermScene

def tenPow (exponent : Int) : Rat :=
  if 0 ≤ exponent then (Nat.pow 10 exponent.toNat : Nat)
  else 1 / (Nat.pow 10 (-exponent).toNat : Nat)

namespace Binary64

/-- The double nearest to `digits * 10 ^ exponent`. The first two cases give what rounding would,
without computing a power that no double needs: above the exponent 400 even one unit is beyond
every double, and a number below `2 ^ (-1076)` is nearest to zero. -/
def ofScientific (digits : Nat) (exponent : Int) : Binary64 :=
  if digits = 0 then .finite 0
  else if 400 < exponent then .infinity false
  else if (digits.log2 : Int) + 1 + 3 * exponent < -1076 then .finite 0
  else round ((digits : Rat) * tenPow exponent)

/-- The exponent part of a numeral: nothing, or a letter `e`, a sign and digits. -/
def readExponent? : List Char → Option Int
  | [] => some 0
  | mark :: rest =>
      if mark = 'e' ∨ mark = 'E' then
        let (negative, body) := takeSign rest
        match takeDigits body with
        | ([], _) => none
        | (values, []) =>
            some (if negative then -(ofDigits values : Int) else (ofDigits values : Int))
        | (_, _ :: _) => none
      else none

/-- The digits after a point, and the rest of the text. -/
def takeFraction : List Char → List Nat × List Char
  | '.' :: rest => takeDigits rest
  | chars => ([], chars)

/-- The number that digits with an optional fraction and exponent write. -/
def readMagnitude? (chars : List Char) : Option Binary64 :=
  let (whole, afterWhole) := takeDigits chars
  let (fraction, afterFraction) := takeFraction afterWhole
  if whole.isEmpty && fraction.isEmpty then none
  else (readExponent? afterFraction).map fun exponent =>
    ofScientific (ofDigits (whole ++ fraction)) (exponent - (fraction.length : Int))

def ofWord? (chars : List Char) : Option Binary64 :=
  let word := String.ofList (chars.map Char.toLower)
  if word = "inf" ∨ word = "infinity" then some (.infinity false)
  else if word = "nan" then some .nan
  else none

/-- The double that a text writes, with an optional sign. -/
def ofText? (text : String) : Option Binary64 := do
  let chars ← ungroup? false (trimPadding text.toList)
  let (negative, body) := takeSign chars
  let number ← (ofWord? body).or (readMagnitude? body)
  return if negative then number.neg else number

end Binary64

end TermScene
