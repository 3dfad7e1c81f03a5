/-!
# Sets of characters

Character classes are tables. A set of characters is written as the increasing list of code
points at which membership changes, so a run of neighbouring characters takes two entries, and a
character is a member when an odd number of changes lies at or below its code point.
-/

namespace TermScene

/-- A set of characters, given by the code points at which membership changes. -/
structure CharSet where
  changes : List Nat

namespace CharSet

/-- Membership of a code point, starting from the membership `inside` before the first change. -/
def insideAfter (point : Nat) : List Nat → Bool → Bool
  | [], inside => inside
  | change :: later, inside =>
      if change ≤ point then insideAfter point later (!inside) else inside

def contains (set : CharSet) (char : Char) : Bool :=
  insideAfter char.toNat set.changes false

end CharSet

end TermScene
