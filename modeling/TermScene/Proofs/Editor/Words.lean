import TermScene.Proofs.Editor.Outline
import TermScene.Proofs.Program.Inside

/-!
# First words of commands

Every command of a document starts with a word of its own. The commands of a program, outer ones before
those inside them, are written in the order of its tokens, so that the range of its first word tells a
command from every other one.
-/

namespace TermScene

namespace Command

/-- Where the first word of a command stands in a document. -/
def wordRange? (command : Command) : Option TextRange :=
  command.place.map fun place =>
    .onLine (place.line - 1) (place.column - 1) command.keyword.word.length

/-- The place of a command with its first word. -/
def writtenWord (command : Command) : Option Location × String :=
  (command.place, command.keyword.word)

end Command

def Token.written (token : Token) : Option Location × String := (token.location, token.text)

theorem DerivesPlain.begins {tokens : List Token} {command : Command}
    (derives : DerivesPlain tokens command) :
    ∃ word rest, tokens = word :: rest ∧ word.written = command.writtenWord := by
  cases derives <;> exact ⟨_, _, rfl, Prod.ext rfl ‹Token.IsWord _ _›.2⟩

/-- A first word before a block, among the tokens around it. -/
theorem writtenWords_of_block {word : Token} {body : List Token} {command : Command}
    {commands : List Command} (before after : List Token) (begins : word.written = command.writtenWord)
    (inside : ((allIn commands).map Command.writtenWord).Sublist (body.map Token.written)) :
    ((command :: allIn commands).map Command.writtenWord).Sublist
      ((word :: (before ++ body ++ after)).map Token.written) := by
  rw [List.map_cons, List.map_cons, begins]
  refine .cons_cons _ (inside.trans (List.Sublist.map _ ?_))
  exact (List.sublist_append_right before body).trans (List.sublist_append_left _ after)

mutual

/-- The commands that tokens stand for are written as some of the tokens, in their order. -/
theorem DerivesCommand.writtenWords_sublist : {tokens : List Token} → {command : Command} →
    DerivesCommand tokens command →
      (command.all.map Command.writtenWord).Sublist (tokens.map Token.written)
  | _, _, .plain isPlain => by
      rcases isPlain.begins with ⟨word, rest, rfl, begins⟩
      simp [isPlain.all_eq, begins]
  | _, _, @DerivesCommand.frame word left right body commands starts opens isBody closes =>
      writtenWords_of_block [left] [right] (Prod.ext rfl starts.2) isBody.writtenWords_sublist
  | _, _, @DerivesCommand.animate word left right for' time stop body commands duration starts opens
      isBody closes isFor isTime stops =>
      writtenWords_of_block [left] [right, for', time, stop] (Prod.ext rfl starts.2)
        isBody.writtenWords_sublist

theorem DerivesCommands.writtenWords_sublist : {tokens : List Token} → {commands : List Command} →
    DerivesCommands tokens commands →
      ((allIn commands).map Command.writtenWord).Sublist (tokens.map Token.written)
  | _, _, .none => .slnil
  | _, _, @DerivesCommands.some first later command commands isFirst isLater => by
      rw [allIn, List.map_append, List.map_append]
      exact isFirst.writtenWords_sublist.append isLater.writtenWords_sublist

end

/-- The ranges of the first words of commands, which no two of them share. -/
structure DistinctWords (tokens : List Token) (commands : List Command) : Prop where
  covered : ∀ command ∈ commands, ∃ token ∈ tokens, ∃ range, command.wordRange? = some range ∧
    token.Covers range ∧ token.text = command.keyword.word
  distinct : (commands.map Command.wordRange?).Nodup

theorem Keyword.newlineParts_word (keyword : Keyword) :
    newlineParts keyword.word.toList = [keyword.word.toList] := by
  cases keyword <;> decide

/-- The range of a command's first word is that of the token that was read as the word. -/
theorem Command.wordRange?_of_covers {command : Command} {token : Token} {range : TextRange}
    (isWord : token.written = command.writtenWord) (covers : token.Covers range) :
    command.wordRange? = some range := by
  rcases Prod.ext_iff.mp isWord with ⟨location, text⟩
  simp only [Token.written, writtenWord] at location text
  have start := covers.start
  have stop := covers.stop
  rw [Token.stopPosition, start, Option.map_some, text,
    Position.past_of_newlineParts _ command.keyword.newlineParts_word] at stop
  rw [Token.startPosition, location] at start
  rcases place : command.place with _ | place
  · simp [place] at start
  · simp only [place, Option.map_some, Option.some.injEq] at start
    rcases range with ⟨rangeStart, rangeStop⟩
    simp only [Option.some.injEq] at start stop
    subst start stop
    simp [wordRange?, place, TextRange.onLine, Position.ofLocation]

theorem InOrder.nodup_startPositions {tokens : List Token} (inOrder : InOrder tokens) :
    (tokens.map Token.startPosition).Nodup := by
  refine List.pairwise_map.mpr (inOrder.apart.imp_of_mem ?_)
  intro earlier later isEarlier isLater apart same
  rcases inOrder.covers earlier isEarlier with ⟨left, coversLeft⟩
  rcases inOrder.covers later isLater with ⟨right, coversRight⟩
  have sameStart : left.start = right.start := by
    simpa [coversLeft.start, coversRight.start] using same
  have less := Position.lt_of_lt_of_le coversLeft.nonempty (apart _ _ coversLeft coversRight)
  rw [sameStart, Position.lt_def] at less
  omega

theorem distinctWords_of_derives {tokens part : List Token} {commands : List Command}
    (inOrder : InOrder tokens) (isPart : part.Sublist tokens)
    (derives : DerivesCommands part commands) : DistinctWords tokens (allIn commands) := by
  have sub := derives.writtenWords_sublist.trans (isPart.map Token.written)
  constructor
  case covered =>
    intro command inside
    rcases List.mem_map.mp (sub.subset (List.mem_map_of_mem inside)) with ⟨token, isToken, isWord⟩
    rcases inOrder.covers token isToken with ⟨range, covers⟩
    exact ⟨token, isToken, range, command.wordRange?_of_covers isWord covers, covers,
      congrArg Prod.snd isWord⟩
  case distinct =>
    -- Already the starts of the ranges are distinct, since those of the tokens are.
    have starts := sub.map fun written => written.1.map Position.ofLocation
    rw [List.map_map, List.map_map] at starts
    have same : Option.map TextRange.start ∘ Command.wordRange? =
        (fun written => written.1.map Position.ofLocation) ∘ Command.writtenWord := by
      funext command
      simp only [Function.comp_apply, Command.wordRange?, Option.map_map]
      rfl
    refine List.Nodup.of_map (Option.map TextRange.start) ?_
    rw [List.map_map, same]
    exact inOrder.nodup_startPositions.sublist starts

theorem DerivesProgram.distinctWords {tokens front : List Token} {program : Program}
    (derives : DerivesProgram front program) (inOrder : InOrder tokens) (begins : front <+: tokens) :
    DistinctWords tokens (allIn program.commands) := by
  cases derives with
  | @program word left right body commands starts opens isBody closes =>
      have isPart : body <:+: word :: left :: body ++ [right] := ⟨[word, left], [right], rfl⟩
      exact distinctWords_of_derives inOrder (isPart.sublist.trans begins.sublist) isBody

end TermScene
