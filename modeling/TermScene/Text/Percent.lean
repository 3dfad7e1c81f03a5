import TermScene.Text.Digit
import TermScene.Text.Utf8

/-!
# Percent signs in addresses

In an address an octet can be written as a percent sign and two hexadecimal digits. Any other character
stands for its own octets, and so does a percent sign without two digits after it. Decoding is done once:
what it yields may hold percent signs again.
-/

namespace TermScene

/-- The value of a hexadecimal digit among the ASCII characters. -/
def asciiHexValue? (char : Char) : Option Nat :=
  if char.toNat < 0x80 then hexValue? char else none

/-- The octet that two hexadecimal digits stand for. -/
def octetOfDigits? (high low : Char) : Option UInt8 :=
  match asciiHexValue? high, asciiHexValue? low with
  | some sixteens, some ones => some (UInt8.ofNat (16 * sixteens + ones))
  | _, _ => none

/-- The octets that the characters of an address stand for. -/
def addressOctets : List Char → List UInt8
  | '%' :: high :: low :: rest =>
      match octetOfDigits? high low with
      | some octet => octet :: addressOctets rest
      | none => String.utf8EncodeChar '%' ++ addressOctets (high :: low :: rest)
  | char :: rest => String.utf8EncodeChar char ++ addressOctets rest
  | [] => []

/-- An address without percent signs for octets. Octets that are no text are replaced. -/
def percentDecoded (address : String) : String :=
  String.ofList (Utf8.decodeReplacing (addressOctets address.toList))

end TermScene
