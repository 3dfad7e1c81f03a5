/-!
# Double-precision numbers

The numbers of a scene program are IEEE 754 doubles. A finite double is kept as the exact rational
number it stands for, so that every statement about one is a statement about rationals; the only
inexact step is `Binary64.round`, which takes a rational number to the nearest double.

The grid around a number of magnitude `q` has the step `2 ^ (⌊log₂ q⌋ - 52)`, but never a smaller
one than `2 ^ (-1074)`; a tie goes to the even multiple of the step.
-/

namespace TermScene

def twoPow (exponent : Int) : Rat :=
  if 0 ≤ exponent then (Nat.pow 2 exponent.toNat : Nat)
  else 1 / (Nat.pow 2 (-exponent).toNat : Nat)

def magnitude (value : Rat) : Rat := if value < 0 then -value else value

/-- The exponent of the greatest power of two at or below a positive number. -/
def floorLog2 (value : Rat) : Int :=
  let estimate : Int := (value.num.natAbs.log2 : Int) - (value.den.log2 : Int)
  if value < twoPow estimate then estimate - 1 else estimate

/-- The integer nearest to a number; a tie goes to the even one. -/
def roundTiesToEven (value : Rat) : Int :=
  let below := value.floor
  let above := value - (below : Rat)
  if above < 1 / 2 then below
  else if 1 / 2 < above then below + 1
  else if below % 2 = 0 then below
  else below + 1

/-- A double-precision number: a finite value, the negative zero, an infinity or no number. -/
inductive Binary64 where
  | finite (value : Rat)
  | negativeZero
  | infinity (negative : Bool)
  | nan
  deriving DecidableEq, Inhabited

namespace Binary64

/-- The step of the grid of doubles around a number of a positive magnitude. -/
def gridStep (size : Rat) : Rat :=
  twoPow (max (floorLog2 size - 52) (-1074))

/-- The grid point nearest to a rational number, as if there were no greatest double. -/
def nearest (value : Rat) : Rat :=
  if value = 0 then 0
  else
    let step := gridStep (magnitude value)
    (roundTiesToEven (value / step) : Rat) * step

/-- The grid point next below a positive one. Below a power of two the step is halved, unless it is the
smallest there is. -/
def below (value : Rat) : Rat :=
  let step := gridStep value
  let halved := value - step / 2
  if nearest halved = halved then halved else value - step

/-- The least magnitude that no finite double reaches. -/
def limit : Rat := twoPow 1024

/-- The double nearest to a rational number. A number too small for the grid becomes a zero of its
sign, and one that rounds to `limit` or beyond the infinity of its sign. -/
def round (value : Rat) : Binary64 :=
  let result := nearest value
  if limit ≤ magnitude result then .infinity (decide (value < 0))
  else if result = 0 ∧ value < 0 then .negativeZero
  else .finite result

def value? : Binary64 → Option Rat
  | .finite value => some value
  | .negativeZero => some 0
  | .infinity _ => none
  | .nan => none

/-- Whether the sign is negative; the sign of a zero counts. -/
def isNegative : Binary64 → Bool
  | .finite value => decide (value < 0)
  | .negativeZero => true
  | .infinity negative => negative
  | .nan => false

/-- Why a number has no integer part. -/
inductive Unbounded where
  | infinite
  | notANumber
  deriving DecidableEq, Repr

def Unbounded.message : Unbounded → String
  | .infinite => "cannot convert float infinity to integer"
  | .notANumber => "cannot convert float NaN to integer"

/-- What a finite value gives, or why there is none. -/
def onFinite (take : Rat → Int) (number : Binary64) : Except Unbounded Int :=
  match number with
  | .finite value => .ok (take value)
  | .negativeZero => .ok (take 0)
  | .infinity _ => .error .infinite
  | .nan => .error .notANumber

def floor (number : Binary64) : Except Unbounded Int := number.onFinite Rat.floor

def ceil (number : Binary64) : Except Unbounded Int := number.onFinite Rat.ceil

/-- The integer part of a number, its fraction cut off. -/
def truncate (number : Binary64) : Except Unbounded Int :=
  number.onFinite fun value => if value < 0 then value.ceil else value.floor

/-- The integer nearest to a number; a tie goes to the even one. -/
def toNearestInt (number : Binary64) : Except Unbounded Int := number.onFinite roundTiesToEven

/-- Order of numbers: the zeros are equal, and no number is ordered with a `nan`. -/
def le : Binary64 → Binary64 → Bool
  | .nan, _ => false
  | _, .nan => false
  | .infinity true, _ => true
  | _, .infinity false => true
  | .infinity false, _ => false
  | _, .infinity true => false
  | left, right =>
      match left.value?, right.value? with
      | some leftValue, some rightValue => decide (leftValue ≤ rightValue)
      | _, _ => false

def lt (left right : Binary64) : Bool := left.le right && !right.le left

/-- Equality of numbers: the zeros are equal, and a `nan` equals nothing. -/
def equals (left right : Binary64) : Bool := left.le right && right.le left

def ofInt (value : Int) : Binary64 := round (value : Rat)

@[simp]
theorem round_zero : round 0 = .finite 0 := by decide +kernel

theorem truncate_finite (value : Rat) :
    truncate (.finite value) = .ok (if value < 0 then value.ceil else value.floor) := rfl

theorem equals_self_iff (number : Binary64) : number.equals number = true ↔ number ≠ .nan := by
  cases number with
  | finite value => simp [equals, le, value?]
  | negativeZero => simp [equals, le, value?]
  | infinity negative => cases negative <;> simp [equals, le]
  | nan => simp [equals, le]

end Binary64

end TermScene
