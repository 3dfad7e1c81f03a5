import TermScene.Editor.Linter
import TermScene.Proofs.Editor.Ignored

/-!
# The warnings about a program

A linter walks through the commands of a program, outer ones before those inside them, and gathers for each
of them at most two warnings: that it is ignored, and that its colour is unknown. What it gathers is added
to what it found before the command, and every check starts from nothing, so that checking again finds the
same. Each warning covers the word that the command was read from.
-/

namespace TermScene

mutual

/-- A command and all those inside it, outer ones first, each with whether it stands directly in an
animation. -/
def Command.flagged (inAnimation : Bool) : Command → List (Bool × Command)
  | .frame body place => (inAnimation, .frame body place) :: flaggedIn false body
  | .animate children duration place =>
      (inAnimation, .animate children duration place) :: flaggedIn true children
  | command => [(inAnimation, command)]

def flaggedIn (inAnimation : Bool) : List Command → List (Bool × Command)
  | [] => []
  | first :: later => first.flagged inAnimation ++ flaggedIn inAnimation later

end

/-- The commands that have a colour, and which it is. -/
inductive Command.HasColor : Command → String → Prop where
  | background (color : String) (place : Option Location) : HasColor (.background color place) color
  | circle (x y radius : Binary64) (fill : String) (place : Option Location) :
      HasColor (.draw (.circle x y radius fill) place) fill
  | rect (x y width height : Binary64) (fill : String) (place : Option Location) :
      HasColor (.draw (.rect x y width height fill) place) fill
  | text (content : String) (x y : Binary64) (size : ℤ) (color : String) (place : Option Location) :
      HasColor (.draw (.text content x y size color) place) color
  | line (x1 y1 x2 y2 : Binary64) (color : String) (place : Option Location) :
      HasColor (.draw (.line x1 y1 x2 y2 color) place) color

theorem Command.hasColor_iff {command : Command} {color : String} :
    command.HasColor color ↔ command.color? = some color := by
  constructor
  · intro isColor
    cases isColor <;> rfl
  · intro found
    cases command with
    | background fill place =>
        cases found
        exact .background color place
    | draw drawing place =>
        cases found
        cases drawing with
        | circle x y radius fill => exact .circle x y radius fill place
        | rect x y width height fill => exact .rect x y width height fill place
        | text content x y size fill => exact .text content x y size fill place
        | line x1 y1 x2 y2 fill => exact .line x1 y1 x2 y2 fill place
    | _ => cases found

section Flags

mutual

theorem Command.map_flagged (inAnimation : Bool) : (subject : Command) →
    (subject.flagged inAnimation).map Prod.snd = subject.all
  | .frame body _ => congrArg _ (map_flaggedIn false body)
  | .animate children _ _ => congrArg _ (map_flaggedIn true children)
  | .background .. | .draw .. | .define .. | .rainbow .. | .wait .. => rfl

theorem map_flaggedIn (inAnimation : Bool) : (block : List Command) →
    (flaggedIn inAnimation block).map Prod.snd = allIn block
  | [] => rfl
  | first :: later => by
      rw [flaggedIn, List.map_append, first.map_flagged, map_flaggedIn inAnimation later, allIn]

end

mutual

theorem Command.true_mem_flagged_iff (inAnimation : Bool) (command : Command) : (subject : Command) →
    ((true, command) ∈ subject.flagged inAnimation ↔
      inAnimation = true ∧ command = subject ∨
        ∃ animation ∈ subject.all, command ∈ animation.children)
  | .frame body place => by
      rw [Command.flagged, Command.all, List.mem_cons, true_mem_flaggedIn_iff false command body]
      simp [Command.children, eq_comm]
  | .animate children duration place => by
      rw [Command.flagged, Command.all, List.mem_cons, true_mem_flaggedIn_iff true command children]
      simp [Command.children, eq_comm]
  | .background .. | .draw .. | .define .. | .rainbow .. | .wait .. => by
      simp [Command.flagged, Command.all, Command.children, eq_comm]

/-- The flagged commands are those that stand directly in an animation. -/
theorem true_mem_flaggedIn_iff (inAnimation : Bool) (command : Command) : (block : List Command) →
    ((true, command) ∈ flaggedIn inAnimation block ↔
      inAnimation = true ∧ command ∈ block ∨ ∃ animation ∈ allIn block, command ∈ animation.children)
  | [] => by simp [flaggedIn, allIn]
  | first :: later => by
      rw [flaggedIn, List.mem_append, Command.true_mem_flagged_iff inAnimation command first,
        true_mem_flaggedIn_iff inAnimation command later]
      simp only [allIn, List.mem_append, List.mem_cons, or_and_right, exists_or]
      rw [or_or_or_comm, ← and_or_left]

end

end Flags

namespace Editor

namespace Gathering

theorem run_command (found : List Problem) (inAnimation : Bool) (subject : Command) :
    (Gathering.command inAnimation subject).run found =
      ((), found ++ commandWarnings inAnimation subject) := by
  unfold Gathering.command commandWarnings
  generalize (inAnimation && !subject.isFrame) = isIgnored
  generalize warning subject ignoredMessage = ignored
  rcases subject.color? with _ | color
  · cases isIgnored
    · exact congrArg (Prod.mk ()) (List.append_nil found).symm
    · exact congrArg (fun more => ((), found ++ more)) (List.append_nil ignored).symm
  · dsimp only
    generalize Color.isKnown color = known
    generalize warning subject (unknownColorMessage color) = unknown
    cases isIgnored <;> cases known
    · rfl
    · exact congrArg (Prod.mk ()) (List.append_nil found).symm
    · exact congrArg (Prod.mk ()) (List.append_assoc found ignored unknown)
    · exact congrArg (fun more => ((), found ++ more)) (List.append_nil ignored).symm

mutual

theorem run_inside (found : List Problem) (inAnimation : Bool) : (subject : Command) →
    (Gathering.inside subject).run (found ++ commandWarnings inAnimation subject) =
      ((), found ++ lintCommand inAnimation subject)
  | .frame body place => by
      rw [Gathering.inside, run_block _ false body, lintCommand, List.append_assoc]
  | .animate children duration place => by
      rw [Gathering.inside, run_block _ true children, lintCommand, List.append_assoc]
  | .background .. | .draw .. | .define .. | .rainbow .. | .wait .. => rfl

/-- A walk through a block adds its warnings to what was found before. -/
theorem run_block (found : List Problem) (inAnimation : Bool) : (commands : List Command) →
    (Gathering.block inAnimation commands).run found =
      ((), found ++ lintCommands inAnimation commands)
  | [] => by
      rw [lintCommands, List.append_nil]
      rfl
  | first :: later => by
      change (Gathering.block inAnimation later).run ((Gathering.inside first).run
        ((Gathering.command inAnimation first).run found).2).2 = _
      rw [run_command, run_inside _ _ first, run_block _ _ later, lintCommands, List.append_assoc]

end

end Gathering

/-- A check finds the problems in the document, whatever was found before, and keeps them. -/
theorem Linter.check_eq (linter : Linter) :
    linter.check =
      (problems linter.source linter.uri,
        { linter with
          found := ((problems linter.source linter.uri).toOption.map Prod.fst).getD [] }) := by
  unfold check problems
  rcases readDocument linter.source linter.uri with (error | _ | _) | document
  · rfl
  · rfl
  · rfl
  · simp only [Gathering.run_block, List.nil_append]
    rfl

/-- The stretch of the word that a command was read from, which is the first of the tokens that make the
command up. -/
def ReadAt (tokens : List Token) (command : Command) (range : TextRange) : Prop :=
  ∃ word rest, word :: rest <:+: tokens ∧ DerivesCommand (word :: rest) command ∧
    word.IsWord command.keyword.word ∧ word.Covers range

/-- One problem if something is so, and none if it is not. -/
inductive OneIf (isSo : Prop) (problem : Problem) : List Problem → Prop where
  | one (holds : isSo) : OneIf isSo problem [problem]
  | none (fails : ¬isSo) : OneIf isSo problem []

def warningOn (range : TextRange) (message : String) : Problem := ⟨range, message, .warning, none⟩

/-- The warning about the colour of a command, if it has one. -/
inductive WarnsOfColor (command : Command) (range : TextRange) : List Problem → Prop where
  | colored {color : String} {found : List Problem} (isColor : command.HasColor color)
      (warns : OneIf (Color.isKnown color = false) (warningOn range (unknownColorMessage color)) found) :
      WarnsOfColor command range found
  | colorless (noColor : ∀ color, ¬command.HasColor color) : WarnsOfColor command range []

/-- The warnings about a command itself, on the word that it was read from: first that it is ignored, then
that its colour is unknown. -/
def WarnsAbout (document : ReadDocument) (command : Command) (found : List Problem) : Prop :=
  ∃ range ignored unknown, found = ignored ++ unknown ∧ ReadAt document.tokens command range ∧
    OneIf (command ∈ document.read.program.ignored) (warningOn range ignoredMessage) ignored ∧
    WarnsOfColor command range unknown

/-- The problems in a document that can be read: those of its commands one after another, outer ones
before those inside them, and no error. -/
structure Warns (document : ReadDocument) (listed : List Problem) : Prop where
  inOrder : ∃ warnings, listed = warnings.flatten ∧
    List.Forall₂ (WarnsAbout document) (allIn document.read.program.commands) warnings
  noError : ∀ problem ∈ listed, problem.severity = .warning

end Editor

theorem DerivesCommand.firstWord {tokens : List Token} {command : Command}
    (derives : DerivesCommand tokens command) :
    ∃ word rest, tokens = word :: rest ∧ word.IsWord command.keyword.word ∧
      word.written = command.writtenWord := by
  cases derives with
  | plain isPlain => cases isPlain <;> exact ⟨_, _, rfl, ‹Token.IsWord _ _›, Prod.ext rfl ‹Token.IsWord _ _›.2⟩
  | frame starts opens isBody closes => exact ⟨_, _, rfl, starts, Prod.ext rfl starts.2⟩
  | animate starts opens isBody closes isFor isTime stops =>
      exact ⟨_, _, rfl, starts, Prod.ext rfl starts.2⟩

namespace Editor

section Document

variable {document : ReadDocument} {front : List Token}

/-- Every command of a document was read from a word of its own. -/
theorem exists_readAt (inOrder : InOrder document.tokens) (begins : front <+: document.tokens)
    (derives : DerivesProgram front document.read.program) :
    ∀ command ∈ allIn document.read.program.commands,
      ∃ range, ReadAt document.tokens command range ∧ command.wordRange? = some range := by
  intro command inside
  obtain ⟨part, isPart, isCommand⟩ : ∃ part, part <:+: front ∧ DerivesCommand part command := by
    generalize document.read.program = program at derives inside
    cases derives with
    | @program word left right body commands starts opens isBody closes =>
        rcases isBody.exists_part inside with ⟨part, isPart, isCommand⟩
        exact ⟨part, isPart.trans ⟨[word, left], [right], rfl⟩, isCommand⟩
  rcases isCommand.firstWord with ⟨word, rest, rfl, isWord, written⟩
  have isInfix := isPart.trans begins.isInfix
  rcases inOrder.covers word (isInfix.subset List.mem_cons_self) with ⟨range, covers⟩
  exact ⟨range, ⟨word, rest, isInfix, isCommand, isWord, covers⟩,
    command.wordRange?_of_covers written covers⟩

/-- A command is flagged exactly if it stands directly in an animation: no other command has its first
word. -/
theorem flag_iff (words : DistinctWords document.tokens (allIn document.read.program.commands))
    {flag : Bool} {command : Command}
    (visited : (flag, command) ∈ flaggedIn false document.read.program.commands) :
    (flag && !command.isFrame) = true ↔ command ∈ document.read.program.ignored := by
  have isDirect := true_mem_flaggedIn_iff false command document.read.program.commands
  simp only [Bool.false_eq_true, false_and, false_or] at isDirect
  have flagged : flag = true ↔
      ∃ animation ∈ allIn document.read.program.commands, command ∈ animation.children := by
    rw [← isDirect]
    constructor
    · rintro rfl
      exact visited
    · -- Two visits to the command, flagged and not, would share the range of its first word.
      intro visited'
      have distinct := words.distinct
      rw [← map_flaggedIn false, List.map_map] at distinct
      exact congrArg Prod.fst (List.inj_on_of_nodup_map distinct visited visited' rfl)
  rw [Bool.and_eq_true, flagged, Program.ignored, List.mem_flatMap]
  simp only [Command.mem_passedOver, Bool.not_eq_true']
  constructor
  · rintro ⟨⟨animation, inside, isChild⟩, noFrame⟩
    exact ⟨animation, inside, isChild, noFrame⟩
  · rintro ⟨animation, inside, isChild, noFrame⟩
    exact ⟨⟨animation, inside, isChild⟩, noFrame⟩

theorem warning_eq {command : Command} {range : TextRange}
    (isRange : command.wordRange? = some range) (message : String) :
    warning command message = [warningOn range message] := by
  rcases Option.map_eq_some_iff.mp isRange with ⟨place, isPlace, rfl⟩
  simp only [warning, isPlace]
  rfl

theorem warnsAbout_commandWarnings {flag : Bool} {command : Command} {range : TextRange}
    (isFlag : (flag && !command.isFrame) = true ↔ command ∈ document.read.program.ignored)
    (readAt : ReadAt document.tokens command range) (isRange : command.wordRange? = some range) :
    WarnsAbout document command (commandWarnings flag command) := by
  refine ⟨range, _, _, rfl, readAt, ?_, ?_⟩
  · rw [← isFlag, warning_eq isRange]
    split
    · exact .one ‹_›
    · exact .none ‹_›
  · cases colored : command.color? with
    | none => exact .colorless fun color isColor => by simp [Command.hasColor_iff, colored] at isColor
    | some color =>
        refine .colored (Command.hasColor_iff.mpr colored) ?_
        simp only [warning_eq isRange]
        split
        · exact .none (by simp [*])
        · exact .one (by simp [*])

mutual

theorem lintCommand_eq (inAnimation : Bool) : (subject : Command) →
    lintCommand inAnimation subject =
      (subject.flagged inAnimation).flatMap fun visit => commandWarnings visit.1 visit.2
  | .frame body place => by
      rw [lintCommand, Command.flagged, List.flatMap_cons, lintCommands_eq false body]
  | .animate children duration place => by
      rw [lintCommand, Command.flagged, List.flatMap_cons, lintCommands_eq true children]
  | .background .. | .draw .. | .define .. | .rainbow .. | .wait .. => (List.append_nil _).symm

/-- The warnings come in the order of the commands. -/
theorem lintCommands_eq (inAnimation : Bool) : (block : List Command) →
    lintCommands inAnimation block =
      (flaggedIn inAnimation block).flatMap fun visit => commandWarnings visit.1 visit.2
  | [] => rfl
  | first :: later => by
      rw [lintCommands, flaggedIn, List.flatMap_append, lintCommand_eq inAnimation first,
        lintCommands_eq inAnimation later]

end

theorem WarnsAbout.severity {command : Command} {found : List Problem}
    (warns : WarnsAbout document command found) : ∀ problem ∈ found, problem.severity = .warning := by
  rcases warns with ⟨range, ignored, unknown, rfl, -, isIgnored, isUnknown⟩
  have ofOne {isSo : Prop} {message : String} {found : List Problem}
      (one : OneIf isSo (warningOn range message) found) : ∀ problem ∈ found, problem.severity = .warning := by
    cases one <;> simp [warningOn]
  refine List.forall_mem_append.mpr ⟨ofOne isIgnored, ?_⟩
  cases isUnknown with
  | colored isColor warns => exact ofOne warns
  | colorless noColor => simp

end Document

/-- Checking a document that can be read finds the warnings of its commands and no error, as often as it
is checked. -/
theorem Linter.check_of_readDocument {linter : Linter} {document : ReadDocument}
    (read : readDocument linter.source linter.uri = .ok document) :
    ∃ listed, linter.check.1 = .ok (listed, document.read.notices) ∧ Warns document listed ∧
      linter.check.2.check.1 = .ok (listed, document.read.notices) := by
  rcases derives_of_readDocument read with ⟨tokensRead, front, begins, derives⟩
  have inOrder := inOrder_of_tokensOf tokensRead
  have words := derives.distinctWords inOrder begins
  have found : problems linter.source linter.uri =
      .ok (lintCommands false document.read.program.commands, document.read.notices) := by
    simp only [problems, read]
  let visits := flaggedIn false document.read.program.commands
  have about : ∀ visit ∈ visits,
      WarnsAbout document visit.2 (commandWarnings visit.1 visit.2) := by
    intro visit isVisit
    have inside : visit.2 ∈ allIn document.read.program.commands := by
      rw [← map_flaggedIn false]
      exact List.mem_map_of_mem isVisit
    rcases exists_readAt inOrder begins derives visit.2 inside with ⟨range, readAt, isRange⟩
    exact warnsAbout_commandWarnings (flag_iff words isVisit) readAt isRange
  have warnings : List.Forall₂ (WarnsAbout document) (allIn document.read.program.commands)
      (visits.map fun visit => commandWarnings visit.1 visit.2) := by
    rw [← map_flaggedIn false, List.forall₂_map_left_iff, List.forall₂_map_right_iff,
      List.forall₂_same]
    exact about
  refine ⟨_, by rw [Linter.check_eq, found], ⟨⟨_, ?_, warnings⟩, ?_⟩, by
    rw [Linter.check_eq, Linter.check_eq, found]⟩
  · rw [lintCommands_eq, List.flatMap_def]
  · intro problem isProblem
    rw [lintCommands_eq, List.mem_flatMap] at isProblem
    rcases isProblem with ⟨visit, isVisit, isWarning⟩
    exact (about visit isVisit).severity problem isWarning

/-- A command that is ignored and has an unknown colour, so that two warnings stand on its word. -/
theorem Linter.check_of_readDocument_twice :
    ∃ document listed,
      readDocument "s\x7banimate\x7bbackground\"x\";\x7dfor 9;\x7d" "a" = .ok document ∧
      listed =
        [⟨⟨⟨0, 10⟩, ⟨0, 20⟩⟩, "Only frame blocks are played inside animate; this command is ignored",
            .warning, none⟩,
          ⟨⟨⟨0, 10⟩, ⟨0, 20⟩⟩, "Unknown color \"x\"; expected a palette name or a hex value", .warning,
            none⟩] ∧
      (Linter.mk "s\x7banimate\x7bbackground\"x\";\x7dfor 9;\x7d" "a" []).check.1 =
        .ok (listed, document.read.notices) ∧ Warns document listed ∧
      (Linter.mk "s\x7banimate\x7bbackground\"x\";\x7dfor 9;\x7d" "a" []).check.2.check.1 =
        .ok (listed, document.read.notices) := by
  let at' (kind : TokenKind) (text : String) (column : Int) : Token :=
    ⟨kind, text, some ⟨1, column, column - 1, some "a"⟩⟩
  have tokensRead : tokensOf "s\x7banimate\x7bbackground\"x\";\x7dfor 9;\x7d" (some "a") =
      .ok [at' .identifier "s" 1, at' .leftBrace "\x7b" 2, at' .identifier "animate" 3,
        at' .leftBrace "\x7b" 10, at' .identifier "background" 11, at' .string "\"x\"" 21,
        at' .semicolon ";" 24, at' .rightBrace "\x7d" 25, at' .identifier "for" 26,
        at' .number "9" 30, at' .semicolon ";" 31, at' .rightBrace "\x7d" 32] := by
    decide +kernel
  have isBackground : DerivesCommand
      [at' .identifier "background" 11, at' .string "\"x\"" 21, at' .semicolon ";" 24]
      (.background "\"x\"" _) :=
    .plain (.background ⟨rfl, rfl⟩ rfl rfl)
  have isAnimation : DerivesCommand (at' .identifier "animate" 3 :: at' .leftBrace "\x7b" 10 ::
      ([at' .identifier "background" 11, at' .string "\"x\"" 21, at' .semicolon ";" 24] ++ []) ++
      [at' .rightBrace "\x7d" 25, at' .identifier "for" 26, at' .number "9" 30,
        at' .semicolon ";" 31]) (.animate _ 9 _) :=
    .animate ⟨rfl, rfl⟩ rfl (.some isBackground .none) rfl rfl (Token.hasCount_nine rfl rfl) rfl
  have derives : DerivesProgram (at' .identifier "s" 1 :: at' .leftBrace "\x7b" 2 :: _ ++
      [at' .rightBrace "\x7d" 32]) _ :=
    .program rfl rfl (.some isAnimation .none) rfl
  rcases readDocument_of_derives tokensRead derives (List.prefix_refl _) with
    ⟨document, read, _, program⟩
  rcases @Linter.check_of_readDocument ⟨_, _, []⟩ document read with ⟨listed, checked, warns, again⟩
  have isListed := checked
  simp only [Linter.check_eq, problems, read, Except.ok.injEq, Prod.mk.injEq, and_true] at isListed
  refine ⟨document, listed, read, ?_, checked, warns, again⟩
  rw [← isListed, program]
  decide +kernel

end Editor

end TermScene
