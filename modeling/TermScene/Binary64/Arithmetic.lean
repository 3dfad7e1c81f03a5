import TermScene.Binary64

/-!
# Arithmetic on doubles

Every operation is the exact one on the values, rounded once. What is left to say is the rules for
infinities, for a `nan` and for the sign of a zero result.
-/

namespace TermScene

namespace Binary64

def zero (negative : Bool) : Binary64 := if negative then .negativeZero else .finite 0

/-- A rounded result, with the sign to take should the exact result be zero. -/
def roundSigned (negative : Bool) (value : Rat) : Binary64 :=
  if value = 0 then zero negative else round value

/-- The sum. Only two negative zeros add up to a negative zero. -/
def add (left right : Binary64) : Binary64 :=
  match left, right with
  | .nan, _ => .nan
  | _, .nan => .nan
  | .infinity leftSign, .infinity rightSign =>
      if leftSign = rightSign then .infinity leftSign else .nan
  | .infinity sign, _ => .infinity sign
  | _, .infinity sign => .infinity sign
  | _, _ =>
      match left.value?, right.value? with
      | some leftValue, some rightValue =>
          roundSigned (left == .negativeZero && right == .negativeZero) (leftValue + rightValue)
      | _, _ => .nan

def neg : Binary64 → Binary64
  | .finite value => if value = 0 then .negativeZero else .finite (-value)
  | .negativeZero => .finite 0
  | .infinity negative => .infinity (!negative)
  | .nan => .nan

def sub (left right : Binary64) : Binary64 := left.add right.neg

/-- The product. Its sign is negative when exactly one factor's is, also for a zero; a zero times an
infinity is no number. -/
def mul (left right : Binary64) : Binary64 :=
  let negative := left.isNegative != right.isNegative
  match left, right with
  | .nan, _ => .nan
  | _, .nan => .nan
  | _, _ =>
      match left.value?, right.value? with
      | some leftValue, some rightValue => roundSigned negative (leftValue * rightValue)
      | some value, none => if value = 0 then .nan else .infinity negative
      | none, some value => if value = 0 then .nan else .infinity negative
      | none, none => .infinity negative

def divNat (number : Binary64) (divisor : Nat) : Binary64 :=
  match number with
  | .finite value => roundSigned number.isNegative (value / (divisor : Rat))
  | other => other

/-- The remainder by a positive integer, rounded down: at least zero and at most the divisor. An
infinity has no remainder. -/
def modNat (number : Binary64) (divisor : Nat) : Binary64 :=
  match number with
  | .finite value =>
      let quotient := value / (divisor : Rat)
      let whole := if quotient < 0 then quotient.ceil else quotient.floor
      let rest := value - (divisor : Rat) * (whole : Rat)
      if rest < 0 then round (rest + (divisor : Rat)) else round rest
  | .negativeZero => .finite 0
  | .infinity _ => .nan
  | .nan => .nan

instance : Add Binary64 := ⟨add⟩
instance : Sub Binary64 := ⟨sub⟩
instance : Mul Binary64 := ⟨mul⟩
instance : Neg Binary64 := ⟨neg⟩

/-- Why two integers have no quotient. -/
inductive NoQuotient where
  | byZero
  | tooLarge
  deriving DecidableEq, Repr

def NoQuotient.message : NoQuotient → String
  | .byZero => "integer division or modulo by zero"
  | .tooLarge => "integer division result too large for a float"

/-- The quotient of two integers as a finite double. -/
def ratio (dividend divisor : Int) : Except NoQuotient Binary64 :=
  if divisor = 0 then .error .byZero
  else
    match round ((dividend : Rat) / (divisor : Rat)) with
    | .infinity _ => .error .tooLarge
    | quotient => .ok quotient

end Binary64

end TermScene
