import TermScene.Proofs.Binary64.Sizes
import TermScene.Proofs.Program.Durations
import TermScene.Proofs.Program.Failure
import TermScene.Proofs.Scene.Turn

/-!
# The magnitudes in a program

No numeral is negative, and rounding it to a double makes it at most twice as large. So if the numerals of
a source are within a bound that is far from the greatest double, every number in the program is finite and
far from it as well, and every duration is a count of milliseconds that is not negative.
-/

namespace TermScene

/-- Tokens whose numerals are no greater than a bound. -/
def NumeralsUpTo (bound : ℚ) (tokens : List Token) : Prop :=
  ∀ token ∈ tokens, token.kind = .number → decimalValue token.text.toList ≤ bound

theorem NumeralsUpTo.mono {bound greater : ℚ} {tokens : List Token} (numerals : NumeralsUpTo bound tokens)
    (isGreater : bound ≤ greater) : NumeralsUpTo greater tokens :=
  fun token inside isNumber => (numerals token inside isNumber).trans isGreater

/-- A command whose numbers are sizes, and whose duration is the integer part of one. -/
structure Command.IsMeasured (exponent : ℕ) (command : Command) : Prop where
  sizes : ∀ drawing, command.drawing? = some drawing →
    ∀ number ∈ drawing.numbers, number.IsSize exponent
  duration : ∀ duration, command.duration? = some duration → 0 ≤ duration ∧ duration ≤ 2 ^ exponent

section Tokens

variable {exponent : ℕ} {tokens : List Token}

theorem DerivesCommand.exists_hasNumber {command : Command} {drawing : Drawing}
    (derives : DerivesCommand tokens command) (draws : command.drawing? = some drawing) :
    ∀ number ∈ drawing.numbers, ∃ token ∈ tokens, token.HasNumber number := by
  cases derives with
  | plain isPlain =>
      have written := isPlain.numbers_written
      cases command <;> simp only [Command.drawing?, Option.some.injEq, reduceCtorEq] at draws
      subst draws
      exact written
  | frame starts opens isBody closes => simp [Command.drawing?] at draws
  | animate starts opens isBody closes isFor isTime stops => simp [Command.drawing?] at draws

theorem Token.IsLexeme.isSize {token : Token} {number : Binary64} (lexeme : token.IsLexeme)
    (hasNumber : token.HasNumber number) (bound : decimalValue token.text.toList ≤ 2 ^ exponent)
    (small : exponent < 1023) : number.IsSize (exponent + 1) := by
  rw [lexeme.number_eq hasNumber]
  exact .round (decimalValue_nonneg _) bound small

theorem DerivesCommand.isMeasured {command : Command} (derives : DerivesCommand tokens command)
    (lexemes : Lexemes tokens) (numerals : NumeralsUpTo (2 ^ exponent) tokens) (small : exponent < 1023) :
    command.IsMeasured (exponent + 1) := by
  have isSize {token : Token} {number : Binary64} (inside : token ∈ tokens)
      (hasNumber : token.HasNumber number) : number.IsSize (exponent + 1) :=
    (lexemes token inside).isSize hasNumber (numerals token inside hasNumber.1) small
  constructor
  · intro drawing draws number isNumber
    rcases derives.exists_hasNumber draws number isNumber with ⟨token, inside, hasNumber⟩
    exact isSize inside hasNumber
  · intro duration takes
    rcases derives.exists_hasCount takes with ⟨token, inside, number, hasNumber, cut⟩
    exact (isSize inside hasNumber).truncate cut

theorem DerivesProgram.isMeasured {program : Program} (derives : DerivesProgram tokens program)
    (lexemes : Lexemes tokens) (numerals : NumeralsUpTo (2 ^ exponent) tokens) (small : exponent < 1023) :
    ∀ command ∈ allIn program.commands, command.IsMeasured (exponent + 1) := by
  intro command inside
  cases derives with
  | @program word left right body commands starts opens isBody closes =>
      rcases isBody.exists_part inside with ⟨part, isPart, isCommand⟩
      have inTokens : ∀ token ∈ part, token ∈ word :: left :: body ++ [right] :=
        fun token inPart => by simp [isPart.subset inPart]
      exact isCommand.isMeasured (fun token inPart => lexemes token (inTokens token inPart))
        (fun token inPart => numerals token (inTokens token inPart)) small

/-- Every command in a program that is read is measured by the numerals of its source. -/
theorem isMeasured_of_read {source filename : String} {name : Option String} {read : ReadProgram}
    (scanned : tokensOf source name = .ok tokens)
    (reads : programOfTokens tokens source filename = .ok read)
    (numerals : NumeralsUpTo (2 ^ exponent) tokens) (small : exponent < 1023) :
    ∀ command ∈ allIn read.program.commands, command.IsMeasured (exponent + 1) := by
  rcases Parser.derives_of_programOfTokens source filename reads with ⟨front, begins, derives⟩
  have lexemes := (tiled_of_tokensOf scanned).lexemes
  exact derives.isMeasured (fun token inside => lexemes token (begins.subset inside))
    (fun token inside => numerals token (begins.subset inside)) small

end Tokens

end TermScene
