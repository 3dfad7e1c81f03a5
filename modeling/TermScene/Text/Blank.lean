import TermScene.Text.CharSet

/-!
# Blank characters

The characters that separate words: the ASCII blanks and separators, the next-line control and
the spaces and separators of Unicode.
-/

namespace TermScene

def blanks : CharSet :=
  ⟨[0x9, 0xe, 0x1c, 0x21, 0x85, 0x86, 0xa0, 0xa1, 0x1680, 0x1681, 0x2000, 0x200b, 0x2028, 0x202a,
    0x202f, 0x2030, 0x205f, 0x2060, 0x3000, 0x3001]⟩

def isBlank (char : Char) : Bool := blanks.contains char

/-- The blanks that may stand around a number: all but the four ASCII separators. -/
def isNumberPadding (char : Char) : Bool :=
  isBlank char && !(0x1c ≤ char.toNat && char.toNat ≤ 0x1f)

theorem isBlank_newline : isBlank '\n' = true := by decide

theorem isBlank_return : isBlank '\r' = true := by decide

end TermScene
