import TermScene.Text.Lines
import TermScene.Text.Percent

/-!
# Numeric hosts

A host can be named by its number on the network. A short number is four decimal octets with points
between them. A long one is eight groups of hexadecimal digits with colons between them; once, two
colons in a row can stand for one or more groups of zeros, the last two groups can be written as a short
number, and a zone can follow behind a percent sign.
-/

namespace TermScene

namespace Host

/-- Whether some digits are a decimal octet. A zero in front of other digits is not allowed. -/
def isOctet (digits : List Char) : Bool :=
  digits.all Char.isDigit && digits.length ≤ 3 && (digits.head? != some '0' || digits.length = 1)
    && (String.ofList digits).toNat?.any (· ≤ 255)

def isShort (host : List Char) : Bool :=
  let octets := partsAt '.' host
  octets.length = 4 && octets.all isOctet

/-- Whether some digits are a group of a long number. -/
def isGroup (digits : List Char) : Bool :=
  1 ≤ digits.length && digits.length ≤ 4 && digits.all fun digit => (asciiHexValue? digit).isSome

/-- The groups of a long number as they are written. A short number at the end is two groups. -/
def writtenGroups (host : List Char) : List (List Char) :=
  let groups := partsAt ':' host
  if groups.getLast?.any isShort then groups.dropLast ++ [['0'], ['0']] else groups

/-- The groups on one side of two colons. There are none if the host begins or ends with them. -/
def sideGroups (groups : List (List Char)) : List (List Char) :=
  if groups = [[]] then [] else groups

/-- Whether a host is a long number without a zone. An empty group between others stands for the ones
left out, so there is at most one, and at least one group is left out. -/
def isLongWithoutZone (host : List Char) : Bool :=
  let groups := writtenGroups host
  let inner := groups.tail.dropLast
  match inner.count [] with
  | 0 => groups.length = 8 && groups.all isGroup
  | 1 =>
      let skipped := inner.idxOf [] + 1
      let given := sideGroups (groups.take skipped) ++ sideGroups (groups.drop (skipped + 1))
      given.length ≤ 7 && given.all isGroup
  | _ => false

/-- Whether a host is a long number. A zone is not empty. -/
def isLong (host : List Char) : Bool :=
  match partsAt '%' host with
  | [number] => isLongWithoutZone number
  | [number, zone] => zone ≠ [] && isLongWithoutZone number
  | _ => false

/-- Whether a host is written in a later version of the notation: a version number in hexadecimal digits
behind the letter `v`, a point and something more. -/
def isLaterVersion : List Char → Bool
  | 'v' :: rest =>
      let version := rest.takeWhile fun digit => (asciiHexValue? digit).isSome
      match rest.drop version.length with
      | '.' :: _ :: _ => version ≠ []
      | _ => false
  | _ => false

end Host

end TermScene
