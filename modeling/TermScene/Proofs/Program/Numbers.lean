import TermScene.Proofs.Binary64.Numeral
import TermScene.Proofs.Program.Inside
import TermScene.Proofs.Program.Recast

/-!
# The numbers in a program

Every number in the tree of a program is written as a numeral among its tokens, so none of them is a
`nan`. This is why trees that differ only in places are alike: likeness compares numbers as numbers, and
a `nan` would not even equal itself.
-/

namespace TermScene

def Drawing.numbers : Drawing → List Binary64
  | .circle x y radius _ => [x, y, radius]
  | .rect x y width height _ => [x, y, width, height]
  | .text _ x y _ _ => [x, y]
  | .line x1 y1 x2 y2 _ => [x1, y1, x2, y2]

namespace Command

mutual

/-- The numbers in a command, of those inside it as well. -/
def numbers : Command → List Binary64
  | .background _ _ => []
  | .draw drawing _ => drawing.numbers
  | .define _ value _ => [value]
  | .rainbow _ x y _ _ => [x, y]
  | .wait _ _ => []
  | .frame body _ => allNumbers body
  | .animate children _ _ => allNumbers children

def allNumbers : List Command → List Binary64
  | [] => []
  | first :: later => numbers first ++ allNumbers later

end

end Command

section Derivations

variable {tokens : List Token}

theorem DerivesPlain.numbers_written {command : Command} (derives : DerivesPlain tokens command) :
    StandsIn Token.HasNumber tokens command.numbers := by
  intro number isNumber
  cases derives with
  | background starts isColor stops => simp [Command.numbers] at isNumber
  | circle starts isAt isPoint marksSize isSize =>
      cases isPoint with
      | point opens isX parts isY closes =>
          simp only [Command.numbers, Drawing.numbers, List.mem_cons, List.not_mem_nil,
            or_false] at isNumber
          rcases isNumber with rfl | rfl | rfl
          · exact ⟨_, by simp, isX⟩
          · exact ⟨_, by simp, isY⟩
          · exact ⟨_, by simp, isSize⟩
  | rect starts isAt isPoint marksWide isWide marksHigh isHigh =>
      cases isPoint with
      | point opens isX parts isY closes =>
          simp only [Command.numbers, Drawing.numbers, List.mem_cons, List.not_mem_nil,
            or_false] at isNumber
          rcases isNumber with rfl | rfl | rfl | rfl
          · exact ⟨_, by simp, isX⟩
          · exact ⟨_, by simp, isY⟩
          · exact ⟨_, by simp, isWide⟩
          · exact ⟨_, by simp, isHigh⟩
  | text starts isContent isAt isPoint =>
      cases isPoint with
      | point opens isX parts isY closes =>
          simp only [Command.numbers, Drawing.numbers, List.mem_cons, List.not_mem_nil,
            or_false] at isNumber
          rcases isNumber with rfl | rfl
          · exact ⟨_, by simp, isX⟩
          · exact ⟨_, by simp, isY⟩
  | line starts isFrom isStart isTo isFinish =>
      cases isStart with
      | point opens isX parts isY closes =>
          cases isFinish with
          | point opens' isX' parts' isY' closes' =>
              simp only [Command.numbers, Drawing.numbers, List.mem_cons, List.not_mem_nil,
                or_false] at isNumber
              rcases isNumber with rfl | rfl | rfl | rfl
              · exact ⟨_, by simp, isX⟩
              · exact ⟨_, by simp, isY⟩
              · exact ⟨_, by simp, isX'⟩
              · exact ⟨_, by simp, isY'⟩
  | var starts isName assigns hasNumber =>
      simp only [Command.numbers, List.mem_singleton] at isNumber
      subst isNumber
      exact ⟨_, by simp, hasNumber⟩
  | rainbow starts isContent isAt isPoint =>
      cases isPoint with
      | point opens isX parts isY closes =>
          simp only [Command.numbers, List.mem_cons, List.not_mem_nil, or_false] at isNumber
          rcases isNumber with rfl | rfl
          · exact ⟨_, by simp, isX⟩
          · exact ⟨_, by simp, isY⟩
  | wait starts isTime stops => simp [Command.numbers] at isNumber

theorem Command.isGathered_numbers : IsGathered Token.HasNumber Command.numbers Command.allNumbers :=
  ⟨DerivesPlain.numbers_written, fun _ _ => rfl, fun _ _ _ => rfl, rfl, fun _ _ => rfl⟩

/-- The number of a numeral is the double nearest to its decimal value. -/
theorem Token.IsLexeme.hasNumber {token : Token} (lexeme : token.IsLexeme)
    (isNumber : token.kind = .number) :
    token.HasNumber (.round (decimalValue token.text.toList)) := by
  have full := lexeme.2
  rw [isNumber] at full
  cases full with
  | number numeral => exact ⟨isNumber, Binary64.ofText?_numeral numeral⟩

theorem Token.IsLexeme.number_eq {token : Token} {number : Binary64} (lexeme : token.IsLexeme)
    (hasNumber : token.HasNumber number) : number = .round (decimalValue token.text.toList) :=
  Option.some.inj (hasNumber.2.symm.trans (lexeme.hasNumber hasNumber.1).2)

theorem Token.hasNumber_nine {token : Token} (isNumber : token.kind = .number)
    (text : token.text = "9") : token.HasNumber (.round (decimalValue "9".toList)) := by
  have isNumeral : IsNumeral "9".toList := @IsNumeral.whole ['9'] ⟨by simp, by simp⟩
  exact ⟨isNumber, by rw [text, Binary64.ofText?_numeral isNumeral]⟩

theorem Token.hasCount_nine {token : Token} (isNumber : token.kind = .number)
    (text : token.text = "9") : token.HasCount 9 :=
  ⟨_, hasNumber_nine isNumber text, by decide +kernel⟩

/-- No number of a program that can be written is a `nan`. -/
theorem DerivesProgram.number_ne_nan {program : Program} (derives : DerivesProgram tokens program)
    (lexemes : Lexemes tokens) : ∀ number ∈ Command.allNumbers program.commands, number ≠ .nan := by
  intro number isNumber
  rcases derives.standsIn Command.isGathered_numbers number isNumber with ⟨token, inside, hasNumber⟩
  rw [(lexemes token inside).number_eq hasNumber]
  exact Binary64.round_ne_nan _

end Derivations

namespace Recast

/-- Strings are kept and places forgotten. -/
def unplacing : Recast where
  string := id
  place := fun _ => none
  quotes := fun _ => rfl

theorem unplacing_drawing (drawing : Drawing) : unplacing.drawing drawing = drawing := by
  cases drawing <;> rfl

end Recast

open Recast

theorem Drawing.alike_self (drawing : Drawing)
    (numbers : ∀ number ∈ drawing.numbers, number ≠ .nan) : drawing.alike drawing = true := by
  cases drawing <;> simp_all [alike, Drawing.numbers, Binary64.equals_self_iff]

namespace Command

mutual

/-- Commands that differ only in places are alike. -/
theorem alike_of_unplacing_eq : (command command' : Command) →
    unplacing.command command = unplacing.command command' →
      (∀ number ∈ command.numbers, number ≠ .nan) → command.alike command' = true
  | .background .., command', same, _ => by
      cases command' <;> simp_all [Recast.command, alike, unplacing]
  | .draw drawing _, command', same, proper => by
      cases command' with
      | draw drawing' _ =>
          simp only [Recast.command, unplacing_drawing, draw.injEq] at same
          rw [← same.1]
          exact drawing.alike_self proper
      | _ => simp [Recast.command] at same
  | .define .., command', same, proper => by
      cases command' <;> simp_all [Recast.command, alike, Command.numbers, Binary64.equals_self_iff]
  | .rainbow .., command', same, proper => by
      cases command' <;>
        simp_all [Recast.command, alike, unplacing, Command.numbers, Binary64.equals_self_iff]
  | .wait .., command', same, _ => by cases command' <;> simp_all [Recast.command, alike]
  | .frame body _, command', same, proper => by
      cases command' with
      | frame body' _ =>
          simp only [Recast.command, frame.injEq] at same
          exact allAlike_of_unplacing_eq body body' same.1 proper
      | _ => simp [Recast.command] at same
  | .animate children duration _, command', same, proper => by
      cases command' with
      | animate children' duration' _ =>
          simp only [Recast.command, animate.injEq] at same
          simp only [alike, Bool.and_eq_true, beq_iff_eq]
          exact ⟨allAlike_of_unplacing_eq children children' same.1 proper, same.2.1⟩
      | _ => simp [Recast.command] at same

theorem allAlike_of_unplacing_eq : (commands commands' : List Command) →
    unplacing.commands commands = unplacing.commands commands' →
      (∀ number ∈ allNumbers commands, number ≠ .nan) → allAlike commands commands' = true
  | [], commands', same, _ => by
      cases commands' <;> simp_all [Recast.commands, allAlike]
  | first :: later, commands', same, proper => by
      cases commands' with
      | nil => simp [Recast.commands] at same
      | cons first' later' =>
          simp only [Recast.commands, List.cons.injEq] at same
          rcases List.forall_mem_append.mp proper with ⟨inFirst, inLater⟩
          simp only [allAlike, Bool.and_eq_true]
          exact ⟨alike_of_unplacing_eq first first' same.1 inFirst,
            allAlike_of_unplacing_eq later later' same.2 inLater⟩

end

end Command

end TermScene
