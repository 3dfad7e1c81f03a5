import TermScene.Text.CharSet

/-!
# Decimal digits

Every script's decimal digits stand in Unicode as a run of ten, so a table of the zeros gives the
digits and their values.
-/

namespace TermScene

/-- The code points of the decimal zeros, in increasing order. -/
def decimalZeros : List Nat :=
  [
    0x30, 0x660, 0x6f0, 0x7c0, 0x966, 0x9e6, 0xa66, 0xae6, 0xb66, 0xbe6, 0xc66, 0xce6, 0xd66, 0xde6,
    0xe50, 0xed0, 0xf20, 0x1040, 0x1090, 0x17e0, 0x1810, 0x1946, 0x19d0, 0x1a80, 0x1a90, 0x1b50,
    0x1bb0, 0x1c40, 0x1c50, 0xa620, 0xa8d0, 0xa900, 0xa9d0, 0xa9f0, 0xaa50, 0xabf0, 0xff10, 0x104a0,
    0x10d30, 0x11066, 0x110f0, 0x11136, 0x111d0, 0x112f0, 0x11450, 0x114d0, 0x11650, 0x116c0,
    0x11730, 0x118e0, 0x11950, 0x11c50, 0x11d50, 0x11da0, 0x16a60, 0x16ac0, 0x16b50, 0x1d7ce,
    0x1d7d8, 0x1d7e2, 0x1d7ec, 0x1d7f6, 0x1e140, 0x1e2f0, 0x1e950, 0x1fbf0]

def digitValue? (char : Char) : Option Nat :=
  (decimalZeros.find? fun first => first ≤ char.toNat && char.toNat < first + 10).map
    (char.toNat - ·)

/-- The value of a character as a hexadecimal digit: a decimal digit of any script, or one of the
first six ASCII letters in either case. -/
def hexValue? (char : Char) : Option Nat :=
  if 'a' ≤ char && char ≤ 'f' then some (char.toNat - 'a'.toNat + 10)
  else if 'A' ≤ char && char ≤ 'F' then some (char.toNat - 'A'.toNat + 10)
  else digitValue? char

theorem digitValue?_lt {char : Char} {value : Nat} (digit : digitValue? char = some value) :
    value < 10 := by
  simp only [digitValue?, Option.map_eq_some_iff] at digit
  obtain ⟨first, found, rfl⟩ := digit
  have inRun := List.find?_some found
  simp only [Bool.and_eq_true, decide_eq_true_eq] at inRun
  omega

theorem hexValue?_lt {char : Char} {value : Nat} (digit : hexValue? char = some value) :
    value < 16 := by
  simp only [hexValue?] at digit
  split at digit
  · rename_i lower
    simp only [Bool.and_eq_true, decide_eq_true_eq, Char.le_def] at lower
    have upperBound := UInt32.le_iff_toNat_le.mp lower.2
    simp only [Option.some.injEq] at digit
    change char.toNat ≤ 102 at upperBound
    change char.toNat - 97 + 10 = value at digit
    omega
  · split at digit
    · rename_i _ upper
      simp only [Bool.and_eq_true, decide_eq_true_eq, Char.le_def] at upper
      have upperBound := UInt32.le_iff_toNat_le.mp upper.2
      simp only [Option.some.injEq] at digit
      change char.toNat ≤ 70 at upperBound
      change char.toNat - 65 + 10 = value at digit
      omega
    · exact Nat.lt_trans (digitValue?_lt digit) (by decide)

end TermScene
