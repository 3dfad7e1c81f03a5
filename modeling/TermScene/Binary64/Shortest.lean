import TermScene.Binary64.Decimal

/-!
# Decimal notation of doubles, written

A double is written either with the fewest significant digits that read back as the same double, or
rounded to six significant digits for display. Both share one layout: a number whose decimal exponent
lies in a window is written out in full, any other in scientific form.
-/

namespace TermScene

/-- The exponent of the greatest power of ten at or below a positive number. The estimate from the
binary exponent is too small by at most one. -/
def floorLog10 (value : Rat) : Int :=
  let estimate := floorLog2 value * 30103 / 100000
  if tenPow (estimate + 1) ≤ value then estimate + 1
  else if value < tenPow estimate then estimate - 1
  else estimate

/-- A positive number in decimal: significant digits without trailing zeros, of which the first has
the weight `10 ^ exponent`. -/
structure Decimal where
  digits : List Char
  exponent : Int
  deriving DecidableEq

namespace Decimal

/-- The decimal `count * 10 ^ exponent`, its trailing zeros cut off. -/
def ofScaled (count : Nat) (exponent : Int) : Decimal :=
  let digits := Nat.toDigits 10 count
  { digits := (digits.reverse.dropWhile (· = '0')).reverse
    exponent := exponent + (digits.length : Int) - 1 }

/-- How a decimal is laid out: the exponents from `positionalFrom` up to but not including
`positionalBelow` are written out in full, and a whole number may keep a point and a zero. -/
structure Layout where
  positionalFrom : Int
  positionalBelow : Int
  wholePoint : Bool

/-- An exact value is written out in full from a ten-thousandth up to sixteen digits before the
point, and always shows a point there. -/
def Layout.exact : Layout := ⟨-4, 16, true⟩

/-- A value for display is written out in full up to six digits before the point, without a needless
point. -/
def Layout.display : Layout := ⟨-4, 6, false⟩

def exponentDigits (exponent : Nat) : List Char :=
  let digits := Nat.toDigits 10 exponent
  if digits.length < 2 then '0' :: digits else digits

def write (layout : Layout) (decimal : Decimal) : String :=
  let digits := decimal.digits
  let exponent := decimal.exponent
  if layout.positionalFrom ≤ exponent ∧ exponent < layout.positionalBelow then
    if exponent < 0 then
      String.ofList ('0' :: '.' :: List.replicate (-exponent - 1).toNat '0' ++ digits)
    else
      let wholeCount := exponent.toNat + 1
      let whole := digits.take wholeCount ++ List.replicate (wholeCount - digits.length) '0'
      match digits.drop wholeCount with
      | [] => String.ofList (if layout.wholePoint then whole ++ ['.', '0'] else whole)
      | fraction => String.ofList (whole ++ '.' :: fraction)
  else
    let mantissa :=
      match digits with
      | first :: [] => [first]
      | first :: rest => first :: '.' :: rest
      | [] => []
    let sign := if exponent < 0 then '-' else '+'
    String.ofList (mantissa ++ 'e' :: sign :: exponentDigits exponent.natAbs)

end Decimal

namespace Binary64

/-- The two decimals of `count` significant digits around a positive number, as multiples of a power
of ten, the nearer one first (of two equally near ones the even one), and the exponent of that
power. -/
def neighbours (value : Rat) (count : Nat) : Nat × Nat × Int :=
  let exponent := floorLog10 value - ((count : Int) - 1)
  let scaled := value / tenPow exponent
  let below := scaled.floor.toNat
  let nearer := (roundTiesToEven scaled).toNat
  (nearer, if nearer = below then below + 1 else below, exponent)

/-- Whether a decimal reads back as a positive double. -/
def readsAs (value : Rat) (count : Nat) (exponent : Int) : Bool :=
  decide (nearest ((count : Rat) * tenPow exponent) = value)

/-- The decimal of `count` significant digits that reads back as a positive double and is nearest to
it, if there is one. -/
def readsBack? (value : Rat) (count : Nat) : Option Decimal :=
  let (nearer, farther, exponent) := neighbours value count
  if readsAs value nearer exponent then some (.ofScaled nearer exponent)
  else if readsAs value farther exponent then some (.ofScaled farther exponent)
  else none

/-- The shortest decimal that reads back as a positive double. Seventeen digits are always enough, so
only the first sixteen counts are tried. -/
def shortest (value : Rat) : Decimal :=
  ((List.range 16).findSome? fun fewer => readsBack? value (fewer + 1)).getD
    (let (nearer, _, exponent) := neighbours value 17
     .ofScaled nearer exponent)

/-- A positive number rounded to six significant digits. -/
def sixDigits (value : Rat) : Decimal :=
  let exponent := floorLog10 value - 5
  Decimal.ofScaled (roundTiesToEven (value / tenPow exponent)).toNat exponent

/-- A number in words and digits, given how to write a positive number and the two zeros. -/
def writeWith (positive : Rat → String) (zero : String) (number : Binary64) : String :=
  match number with
  | .finite value =>
      if value = 0 then zero
      else if value < 0 then "-" ++ positive (-value)
      else positive value
  | .negativeZero => "-" ++ zero
  | .infinity negative => if negative then "-inf" else "inf"
  | .nan => "nan"

def text (number : Binary64) : String :=
  number.writeWith (fun value => (shortest value).write .exact) "0.0"

/-- The number, written for display with six significant digits. -/
def display (number : Binary64) : String :=
  number.writeWith (fun value => (sixDigits value).write .display) "0"

end Binary64

end TermScene
