import TermScene.Proofs.Program.Grammar

/-!
# Commands inside a program

Frames and animations hold commands, which may hold others. Each command inside is derived as if it stood
alone, from some of the tokens around it. What is gathered from the commands of a program therefore stands
in its tokens as soon as this is so for the commands without a block.
-/

namespace TermScene

mutual

/-- A command and all those inside it, outer ones first. -/
def Command.all : Command → List Command
  | .frame body place => .frame body place :: allIn body
  | .animate children duration place => .animate children duration place :: allIn children
  | command => [command]

def allIn : List Command → List Command
  | [] => []
  | first :: later => first.all ++ allIn later

end

theorem Command.mem_all_self (command : Command) : command ∈ command.all := by
  cases command <;> simp [all]

theorem mem_allIn_of_mem {command : Command} {block : List Command} (inside : command ∈ block) :
    command ∈ allIn block := by
  induction block with
  | nil => exact absurd inside List.not_mem_nil
  | cons first later ih =>
      rcases List.mem_cons.mp inside with rfl | inside
      · exact List.mem_append_left _ command.mem_all_self
      · exact List.mem_append_right _ (ih inside)

theorem DerivesPlain.all_eq {tokens : List Token} {command : Command}
    (derives : DerivesPlain tokens command) : command.all = [command] := by
  cases derives <;> rfl

mutual

/-- A command inside another one is derived from tokens in a row of those of the other. -/
theorem DerivesCommand.exists_part : {tokens : List Token} → {command inner : Command} →
    DerivesCommand tokens command → inner ∈ command.all →
      ∃ part, part <:+: tokens ∧ DerivesCommand part inner
  | tokens, _, _, .plain isPlain, inside => by
      rw [isPlain.all_eq, List.mem_singleton] at inside
      subst inside
      exact ⟨tokens, List.infix_rfl, .plain isPlain⟩
  | _, _, _, @DerivesCommand.frame word left right body commands starts opens isBody closes,
      inside => by
      rcases List.mem_cons.mp inside with rfl | inside
      · exact ⟨_, List.infix_rfl, .frame starts opens isBody closes⟩
      · rcases isBody.exists_part inside with ⟨part, isPart, derives⟩
        exact ⟨part, isPart.trans ⟨[word, left], [right], rfl⟩, derives⟩
  | _, _, _, @DerivesCommand.animate word left right for' time stop body children duration starts
      opens isBody closes isFor isTime stops, inside => by
      rcases List.mem_cons.mp inside with rfl | inside
      · exact ⟨_, List.infix_rfl, .animate starts opens isBody closes isFor isTime stops⟩
      · rcases isBody.exists_part inside with ⟨part, isPart, derives⟩
        exact ⟨part, isPart.trans ⟨[word, left], [right, for', time, stop], rfl⟩, derives⟩

theorem DerivesCommands.exists_part : {tokens : List Token} → {commands : List Command} →
    {inner : Command} → DerivesCommands tokens commands → inner ∈ allIn commands →
      ∃ part, part <:+: tokens ∧ DerivesCommand part inner
  | _, _, _, .none, inside => absurd inside List.not_mem_nil
  | _, _, _, @DerivesCommands.some first later command commands isFirst isLater, inside => by
      rcases List.mem_append.mp inside with inFirst | inLater
      · rcases isFirst.exists_part inFirst with ⟨part, isPart, derives⟩
        exact ⟨part, isPart.trans (List.infix_append' [] first later), derives⟩
      · rcases isLater.exists_part inLater with ⟨part, isPart, derives⟩
        exact ⟨part, isPart.trans (List.suffix_append first later).isInfix, derives⟩

end

section Gathered

variable {α : Type} {stands : Token → α → Prop} {tokens : List Token} {items others : List α}

/-- Whether every one of some items stands in one of some tokens, in a given sense. -/
def StandsIn (stands : Token → α → Prop) (tokens : List Token) (items : List α) : Prop :=
  ∀ item ∈ items, ∃ token ∈ tokens, stands token item

theorem StandsIn.of_subset {more : List Token} (standsIn : StandsIn stands tokens items)
    (inside : tokens ⊆ more) : StandsIn stands more items := by
  intro item isItem
  rcases standsIn item isItem with ⟨token, isToken, isIn⟩
  exact ⟨token, inside isToken, isIn⟩

theorem StandsIn.append (standsIn : StandsIn stands tokens items)
    (standsIn' : StandsIn stands tokens others) : StandsIn stands tokens (items ++ others) :=
  List.forall_mem_append.mpr ⟨standsIn, standsIn'⟩

/-- Items of a command and of commands in a row. A command with a block has those of the commands in it,
and the items of every other command stand in its tokens. -/
structure IsGathered (stands : Token → α → Prop) (gather : Command → List α)
    (gatherAll : List Command → List α) : Prop where
  plain : ∀ {tokens : List Token} {command : Command}, DerivesPlain tokens command →
    StandsIn stands tokens (gather command)
  frame : ∀ body place, gather (.frame body place) = gatherAll body
  animate : ∀ children duration place, gather (.animate children duration place) = gatherAll children
  none : gatherAll [] = []
  some : ∀ first later, gatherAll (first :: later) = gather first ++ gatherAll later

variable {gather : Command → List α} {gatherAll : List Command → List α}
  (gathered : IsGathered stands gather gatherAll)

include gathered

mutual

theorem DerivesCommand.standsIn : {tokens : List Token} → {command : Command} →
    DerivesCommand tokens command → StandsIn stands tokens (gather command)
  | _, _, .plain isPlain => gathered.plain isPlain
  | _, _, .frame starts opens isBody closes => by
      rw [gathered.frame]
      apply isBody.standsIn.of_subset
      intro token inside
      simp [inside]
  | _, _, .animate starts opens isBody closes isFor isTime stops => by
      rw [gathered.animate]
      apply isBody.standsIn.of_subset
      intro token inside
      simp [inside]

/-- The items of commands stand in the tokens that the commands are derived from. -/
theorem DerivesCommands.standsIn : {tokens : List Token} → {commands : List Command} →
    DerivesCommands tokens commands → StandsIn stands tokens (gatherAll commands)
  | _, _, .none => by
      rw [gathered.none]
      simp [StandsIn]
  | _, _, .some isFirst isLater => by
      rw [gathered.some]
      apply StandsIn.append
      · exact isFirst.standsIn.of_subset (List.subset_append_left _ _)
      · exact isLater.standsIn.of_subset (List.subset_append_right _ _)

end

theorem DerivesProgram.standsIn {program : Program} (derives : DerivesProgram tokens program) :
    StandsIn stands tokens (gatherAll program.commands) := by
  cases derives with
  | program starts opens isBody closes =>
      apply (isBody.standsIn gathered).of_subset
      intro token inside
      simp [inside]

end Gathered

end TermScene
