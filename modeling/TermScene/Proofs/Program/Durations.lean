import TermScene.Proofs.Binary64.Bounds
import TermScene.Proofs.Program.Inside
import TermScene.Proofs.Program.Numbers
import TermScene.Proofs.Token.Tiling

/-!
# The durations in a program

A numeral can be as long as one likes, but a duration is the integer part of the double nearest to it. A
program with a numeral beyond all doubles cannot be read, so every duration in a program that is read has
a bound.
-/

namespace TermScene

/-- How many milliseconds a command takes, if it says so. -/
def Command.duration? : Command → Option Int
  | .wait duration _ => some duration
  | .animate _ duration _ => some duration
  | _ => none

theorem DerivesPlain.exists_hasCount {tokens : List Token} {command : Command} {duration : ℤ}
    (derives : DerivesPlain tokens command) (takes : command.duration? = some duration) :
    ∃ token ∈ tokens, token.HasCount duration := by
  cases derives <;> simp only [Command.duration?, Option.some.injEq, reduceCtorEq] at takes
  case wait word time stop duration' starts isTime stops =>
    subst takes
    exact ⟨time, by simp, isTime⟩

theorem DerivesCommand.exists_hasCount {tokens : List Token} {command : Command} {duration : ℤ}
    (derives : DerivesCommand tokens command) (takes : command.duration? = some duration) :
    ∃ token ∈ tokens, token.HasCount duration := by
  cases derives with
  | plain isPlain => exact isPlain.exists_hasCount takes
  | frame starts opens isBody closes => simp [Command.duration?] at takes
  | @animate word left right for' time stop body children duration' starts opens isBody closes isFor
      isTime stops =>
      simp only [Command.duration?, Option.some.injEq] at takes
      subst takes
      exact ⟨time, by simp, isTime⟩

/-- The integer part of a numeral's number is below the limit of doubles, like the number. -/
theorem Token.IsLexeme.abs_count_le {token : Token} {count : ℤ} (lexeme : token.IsLexeme)
    (hasCount : token.HasCount count) : |count| ≤ 2 ^ 1024 := by
  rcases hasCount with ⟨number, hasNumber, cut⟩
  have isRounded := lexeme.number_eq hasNumber
  subst isRounded
  rcases Binary64.exists_value?_of_truncate cut with ⟨value, isFinite⟩
  exact (Binary64.Within.of_round isFinite).abs_truncate_le cut

theorem DerivesProgram.abs_duration_le {tokens : List Token} {program : Program}
    (derives : DerivesProgram tokens program) (lexemes : Lexemes tokens) :
    ∀ command ∈ allIn program.commands, ∀ duration ∈ command.duration?, |duration| ≤ 2 ^ 1024 := by
  intro command inside duration takes
  cases derives with
  | @program word left right body commands starts opens isBody closes =>
      rcases isBody.exists_part inside with ⟨part, isPart, isCommand⟩
      rcases isCommand.exists_hasCount takes with ⟨token, inPart, hasCount⟩
      have inBody := isPart.subset inPart
      exact (lexemes token (by simp [inBody])).abs_count_le hasCount

/-- No duration in a program that is read reaches beyond the doubles. -/
theorem abs_duration_le_of_read {source filename : String} {name : Option String} {tokens : List Token}
    {read : ReadProgram} (scanned : tokensOf source name = .ok tokens)
    (reads : programOfTokens tokens source filename = .ok read) :
    ∀ command ∈ allIn read.program.commands, ∀ duration ∈ command.duration?,
      |duration| ≤ 2 ^ 1024 := by
  rcases Parser.derives_of_programOfTokens source filename reads with ⟨front, begins, derives⟩
  have lexemes := (tiled_of_tokensOf scanned).lexemes
  exact derives.abs_duration_le fun token inside => lexemes token (begins.subset inside)

end TermScene
