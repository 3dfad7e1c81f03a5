import TermScene.Proofs.Editor.Closing
import TermScene.Proofs.Editor.Position

/-!
# Entries of commands

The entries of an outline come from two walks over the same tokens: reading takes the tokens of a
command one by one, and the outline looks the first of them up by its place and counts braces up to the
last. The relations below say of which tokens each entry is made, by recursion along the grammar, and
every command that was read among tokens in order has such an entry.
-/

namespace TermScene

namespace Editor

/-- An entry runs from the first of some tokens to the last, and its first token is what is selected. -/
structure OutlineEntry.Spans (entry : OutlineEntry) (construct : List Token) (ending : TokenKind) :
    Prop where
  first : ∃ token ∈ construct.head?, token.Covers entry.selection ∧
    token.startPosition = some entry.range.start
  last : ∃ token ∈ construct.getLast?, token.kind = ending ∧
    token.stopPosition = some entry.range.stop

def endingKind (command : Command) : TokenKind :=
  if command.isFrame then .rightBrace else .semicolon

/-- The entry of a command and the tokens that reading it takes: its place is found where they start,
and counting braces from there stops at the last of them. -/
structure Entered (tokens construct : List Token) (command : Command) (entry : OutlineEntry) :
    Prop where
  reads : ∀ rest, readOne (construct ++ rest) = .done command rest
  found : ∃ place rest, command.place = some place ∧ tokensFrom tokens place = construct ++ rest
  closed : ∀ rest, closing? command.isFrame 0 (construct ++ rest) = construct.getLast?
  spans : entry.Spans construct (endingKind command)
  named : entry.name = entryName command ∧ entry.detail = some (entryDetail command) ∧
    entry.kind = symbolKind command

mutual

/-- The tokens of a command among those of its document, and its entry. -/
inductive CommandOutline (tokens : List Token) : List Token → Command → OutlineEntry → Prop where
  | plain {construct : List Token} {command : Command} {entry : OutlineEntry}
      (isPlain : DerivesPlain construct command) (entered : Entered tokens construct command entry)
      (childless : entry.children = none) : CommandOutline tokens construct command entry
  | frame {word left right : Token} {body : List Token} {commands : List Command}
      {entry : OutlineEntry} {entries : List OutlineEntry}
      (entered : Entered tokens (word :: left :: body ++ [right]) (.frame commands word.location) entry)
      (inside : BlockOutline tokens body commands entries)
      (children : entry.children = some entries) :
      CommandOutline tokens (word :: left :: body ++ [right]) (.frame commands word.location) entry
  | animate {word left right for' time stop : Token} {body : List Token} {commands : List Command}
      {duration : Int} {entry : OutlineEntry} {entries : List OutlineEntry}
      (entered : Entered tokens (word :: left :: body ++ [right, for', time, stop])
        (.animate commands duration word.location) entry)
      (inside : BlockOutline tokens body commands entries)
      (children : entry.children = some entries) :
      CommandOutline tokens (word :: left :: body ++ [right, for', time, stop])
        (.animate commands duration word.location) entry

/-- The tokens of commands in a row, and their entries. -/
inductive BlockOutline (tokens : List Token) :
    List Token → List Command → List OutlineEntry → Prop where
  | none : BlockOutline tokens [] [] []
  | some {first later : List Token} {command : Command} {commands : List Command}
      {entry : OutlineEntry} {entries : List OutlineEntry}
      (isFirst : CommandOutline tokens first command entry)
      (isLater : BlockOutline tokens later commands entries) :
      BlockOutline tokens (first ++ later) (command :: commands) (entry :: entries)

end

/-- The tokens of a program at the front of its document, and its entry. -/
structure ProgramOutline (tokens construct : List Token) (program : Program) (entry : OutlineEntry) :
    Prop where
  reads : ∀ rest, readProgram (construct ++ rest) = .done program rest
  closed : ∀ rest, closing? true 0 (construct ++ rest) = construct.getLast?
  spans : entry.Spans construct .rightBrace
  named : ∃ token ∈ construct.head?, entry.name = token.text
  inside : ∃ word left right body entries, construct = word :: left :: body ++ [right] ∧
    BlockOutline tokens body program.commands entries ∧ entry.children = some entries

end Editor

open Editor

namespace InOrder

variable {construct : List Token}

theorem of_sublist {tokens part : List Token} (inOrder : InOrder tokens) (sub : part.Sublist tokens) :
    InOrder part where
  covers token inPart := inOrder.covers token (sub.subset inPart)
  apart := inOrder.apart.sublist sub
  starts := inOrder.starts.sublist sub

/-- The place of a token is found where the token stands. -/
theorem tokensFrom_place {before after : List Token} {word : Token} {place : Location}
    (inOrder : InOrder (before ++ word :: after)) (isPlace : word.location = some place) :
    tokensFrom (before ++ word :: after) place = word :: after := by
  -- Offsets grow along the tokens, so that none of those before has the offset of this one.
  have earlier := (List.pairwise_append.mp inOrder.starts).2.2
  have skipped : ∀ token ∈ before,
      decide (token.location.map Location.offset ≠ some place.offset) = true := by
    intro token inBefore
    have less := earlier token inBefore word (by simp)
    rw [decide_eq_true_iff]
    intro same
    rcases location : token.location with _ | found
    · simp [location] at same
    · simp only [location, Option.map_some, Option.some.injEq] at same
      simp [Token.start, location, isPlace, same] at less
  rw [tokensFrom, List.dropWhile_append_of_pos skipped, List.dropWhile_cons_of_neg]
  simp [isPlace]

/-- What runs from the first of some tokens up to the one that ends them, whatever comes after. -/
theorem exists_constructRanges {isBlock : Bool} {ending : TokenKind} (inOrder : InOrder construct)
    (nonempty : construct ≠ []) (ends : ∃ token ∈ construct.getLast?, token.kind = ending)
    (closed : ∀ after, closing? isBlock 0 (construct ++ after) = construct.getLast?) :
    ∃ range selection,
      (∀ after, constructRanges isBlock (construct ++ after) = some (range, selection)) ∧
        ∀ entry : OutlineEntry, entry.range = range → entry.selection = selection →
          entry.Spans construct ending := by
  rcases ends with ⟨last, isLast, isEnding⟩
  rcases construct with _ | ⟨first, later⟩
  · exact absurd rfl nonempty
  rcases inOrder.covers first (by simp) with ⟨⟨start, wordStop⟩, covers⟩
  rcases inOrder.covers last (List.mem_of_mem_getLast? isLast) with ⟨⟨lastStart, stop⟩, lastCovers⟩
  rw [Option.mem_def] at isLast
  refine ⟨⟨start, stop⟩, ⟨start, wordStop⟩, ?_, ?_⟩
  · intro after
    have isLastOf : lastOf isBlock (first :: later ++ after) = some last := by
      rw [lastOf, closed, isLast, Option.some_or]
    rw [constructRanges, isLastOf]
    simp only [List.cons_append, List.head?_cons, covers.start, covers.stop, lastCovers.stop]
  · intro entry isRange isSelection
    refine ⟨⟨first, rfl, isSelection ▸ covers, ?_⟩, ⟨last, isLast, isEnding, ?_⟩⟩
    · rw [isRange]
      exact covers.start
    · rw [isRange]
      exact lastCovers.stop

end InOrder

theorem DerivesCommand.place {construct : List Token} {command : Command}
    (derives : DerivesCommand construct command) :
    ∃ word rest, construct = word :: rest ∧ command.place = word.location := by
  cases derives with
  | plain isPlain => cases isPlain <;> exact ⟨_, _, rfl, rfl⟩
  | frame => exact ⟨_, _, rfl, rfl⟩
  | animate => exact ⟨_, _, rfl, rfl⟩

theorem DerivesCommand.ends {construct : List Token} {command : Command}
    (derives : DerivesCommand construct command) :
    ∃ token ∈ construct.getLast?, token.kind = endingKind command := by
  cases derives with
  | plain isPlain =>
      have plain : command.isFrame = false := by cases isPlain <;> rfl
      rcases isPlain.stops with ⟨front, stop, rfl, stops, -⟩
      exact ⟨stop, by simp, by rw [stops, endingKind, plain]; rfl⟩
  | @frame word left right _ _ _ _ _ closes => exact ⟨right, List.getLast?_concat, closes⟩
  | @animate _ _ _ _ _ stop _ _ _ _ _ _ _ _ _ stops =>
      exact ⟨stop, by simp [List.getLast?_cons], stops⟩

/-- The entry of a command depends on the tokens of the command only, wherever they stand. -/
theorem DerivesCommand.exists_entered {construct : List Token} {command : Command}
    (derives : DerivesCommand construct command) (inOrder : InOrder construct)
    (children : Option (List OutlineEntry)) :
    ∃ entry : OutlineEntry, entry.children = children ∧
      ∀ tokens, InOrder tokens → construct <:+: tokens →
        commandEntry tokens command children = some entry ∧
          Entered tokens construct command entry := by
  rcases derives.place with ⟨word, later, isConstruct, isPlace⟩
  rcases inOrder.covers word (by simp [isConstruct]) with ⟨wordRange, covers⟩
  rcases location : word.location with _ | place
  · have nowhere := covers.start
    simp [Token.startPosition, location] at nowhere
  rw [location] at isPlace
  rcases inOrder.exists_constructRanges (by simp [isConstruct]) derives.ends
      (closing?_of_derives derives) with ⟨range, selection, ranges, spans⟩
  refine ⟨⟨entryName command, some (entryDetail command), symbolKind command, range, selection,
    children⟩, rfl, ?_⟩
  rintro tokens allInOrder ⟨before, after, split⟩
  have found : tokensFrom tokens place = construct ++ after := by
    rw [← split, List.append_assoc, isConstruct, List.cons_append] at allInOrder ⊢
    exact allInOrder.tokensFrom_place location
  refine ⟨?_, ⟨?_, ⟨place, after, isPlace, found⟩, ?_, ?_, ⟨rfl, rfl, rfl⟩⟩⟩
  · simp only [commandEntry, commandRanges, isPlace, Option.bind_some, found, ranges, Option.map_some]
  · exact readOne_of_derives derives
  · exact closing?_of_derives derives
  · exact spans _ rfl rfl

/-- A command with a block is entered with the entries of the block. -/
theorem DerivesCommand.exists_entered_block {construct body : List Token} {command : Command}
    {commands : List Command} (derives : DerivesCommand construct command)
    (inOrder : InOrder construct) (bodyPart : body <:+: construct)
    (inside : ∃ entries, ∀ tokens, InOrder tokens → body <:+: tokens →
      entriesOf tokens commands = some entries ∧ BlockOutline tokens body commands entries) :
    ∃ (entry : OutlineEntry) (entries : List OutlineEntry), entry.children = some entries ∧
      ∀ tokens, InOrder tokens → construct <:+: tokens →
        ((entriesOf tokens commands).bind fun children =>
            commandEntry tokens command (some children)) = some entry ∧
          Entered tokens construct command entry ∧ BlockOutline tokens body commands entries := by
  rcases inside with ⟨entries, inside⟩
  rcases derives.exists_entered inOrder (some entries) with ⟨entry, children, entered⟩
  refine ⟨entry, entries, children, ?_⟩
  intro tokens allInOrder part
  rcases inside tokens allInOrder (bodyPart.trans part) with ⟨areEntries, isInside⟩
  rcases entered tokens allInOrder part with ⟨isEntry, isEntered⟩
  exact ⟨by rw [areEntries, Option.bind_some, isEntry], isEntered, isInside⟩

theorem DerivesPlain.entryOf_eq {construct : List Token} {command : Command}
    (isPlain : DerivesPlain construct command) (tokens : List Token) :
    entryOf tokens command = commandEntry tokens command none := by
  cases isPlain <;> rfl

mutual

/-- Every command that was read has an entry among tokens in order. The entry is chosen before the
tokens around the command are known. -/
theorem exists_commandOutline : {construct : List Token} → {command : Command} →
    DerivesCommand construct command → InOrder construct →
      ∃ entry, ∀ tokens, InOrder tokens → construct <:+: tokens →
        entryOf tokens command = some entry ∧ CommandOutline tokens construct command entry
  | _, _, .plain isPlain, inOrder => by
      rcases DerivesCommand.exists_entered (.plain isPlain) inOrder none with
        ⟨entry, childless, entered⟩
      refine ⟨entry, ?_⟩
      intro tokens allInOrder part
      rcases entered tokens allInOrder part with ⟨isEntry, isEntered⟩
      exact ⟨by rw [isPlain.entryOf_eq, isEntry], .plain isPlain isEntered childless⟩
  | _, _, @DerivesCommand.frame word left right body commands starts opens isBody closes, inOrder => by
      have bodyPart : body <:+: word :: left :: body ++ [right] := ⟨[word, left], [right], rfl⟩
      rcases DerivesCommand.exists_entered_block (.frame starts opens isBody closes) inOrder bodyPart
        (exists_blockOutline isBody (inOrder.of_sublist bodyPart.sublist))
        with ⟨entry, entries, children, holds⟩
      refine ⟨entry, ?_⟩
      intro tokens allInOrder part
      rcases holds tokens allInOrder part with ⟨isEntry, isEntered, isInside⟩
      exact ⟨isEntry, .frame isEntered isInside children⟩
  | _, _, @DerivesCommand.animate word left right for' time stop body commands duration starts opens
      isBody closes isFor isTime stops, inOrder => by
      have bodyPart : body <:+: word :: left :: body ++ [right, for', time, stop] :=
        ⟨[word, left], [right, for', time, stop], rfl⟩
      rcases DerivesCommand.exists_entered_block
        (.animate starts opens isBody closes isFor isTime stops) inOrder bodyPart
        (exists_blockOutline isBody (inOrder.of_sublist bodyPart.sublist))
        with ⟨entry, entries, children, holds⟩
      refine ⟨entry, ?_⟩
      intro tokens allInOrder part
      rcases holds tokens allInOrder part with ⟨isEntry, isEntered, isInside⟩
      exact ⟨isEntry, .animate isEntered isInside children⟩

theorem exists_blockOutline : {construct : List Token} → {commands : List Command} →
    DerivesCommands construct commands → InOrder construct →
      ∃ entries, ∀ tokens, InOrder tokens → construct <:+: tokens →
        entriesOf tokens commands = some entries ∧ BlockOutline tokens construct commands entries
  | _, _, .none, inOrder => ⟨[], fun tokens allInOrder part => ⟨rfl, .none⟩⟩
  | _, _, @DerivesCommands.some first later command commands isFirst isLater, inOrder => by
      have firstPart : first <:+: first ++ later := (List.prefix_append first later).isInfix
      have laterPart : later <:+: first ++ later := (List.suffix_append first later).isInfix
      rcases exists_commandOutline isFirst (inOrder.of_sublist firstPart.sublist) with
        ⟨entry, outlined⟩
      rcases exists_blockOutline isLater (inOrder.of_sublist laterPart.sublist) with
        ⟨entries, inside⟩
      refine ⟨entry :: entries, ?_⟩
      intro tokens allInOrder part
      rcases outlined tokens allInOrder (firstPart.trans part) with ⟨isEntry, isOutlined⟩
      rcases inside tokens allInOrder (laterPart.trans part) with ⟨areEntries, isInside⟩
      refine ⟨?_, .some isOutlined isInside⟩
      rw [entriesOf, isEntry, areEntries]
      rfl

end

/-- Every program that was read at the front of tokens in order has an entry, which does not depend on
what comes after it. -/
theorem exists_programOutline {construct : List Token} {program : Program}
    (derives : DerivesProgram construct program) (inOrder : InOrder construct) :
    ∃ entry, ∀ document : ReadDocument, InOrder document.tokens → construct <+: document.tokens →
      document.read.program = program →
        documentEntry document = some entry ∧
          ProgramOutline document.tokens construct program entry := by
  cases derives with
  | @program word left right body commands starts opens isBody closes =>
      have bodyPart : body <:+: word :: left :: body ++ [right] := ⟨[word, left], [right], rfl⟩
      rcases exists_blockOutline isBody (inOrder.of_sublist bodyPart.sublist) with ⟨entries, inside⟩
      have closed : ∀ after, closing? true 0 (word :: left :: body ++ [right] ++ after) =
          (word :: left :: body ++ [right]).getLast? := by
        intro after
        rw [closing?_braces starts opens isBody closes, List.getLast?_concat]
      rcases inOrder.exists_constructRanges (by simp) ⟨right, List.getLast?_concat, closes⟩ closed
        with ⟨range, selection, ranges, spans⟩
      refine ⟨⟨word.text, none, .module, range, selection, some entries⟩, ?_⟩
      rintro document allInOrder ⟨after, split⟩ isProgram
      have part : word :: left :: body ++ [right] <:+: document.tokens :=
        List.IsPrefix.isInfix ⟨after, split⟩
      rcases inside document.tokens allInOrder (bodyPart.trans part) with ⟨areEntries, isInside⟩
      refine ⟨?_, ⟨?_, closed, spans _ rfl rfl, ⟨word, rfl, rfl⟩, ?_⟩⟩
      · have first : document.tokens.head? = some word := by rw [← split]; rfl
        have isRange : constructRanges true document.tokens = some (range, selection) := by
          rw [← split, ranges]
        simp only [documentEntry, first, isRange, isProgram, areEntries, Option.map_some]
      · exact readProgram_of_derives (.program starts opens isBody closes)
      · exact ⟨word, left, right, body, entries, rfl, isInside, rfl⟩

end TermScene
