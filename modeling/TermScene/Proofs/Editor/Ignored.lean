import TermScene.Proofs.Editor.Words
import TermScene.Proofs.Program.Numbers
import TermScene.Proofs.Scene.Played

/-!
# Ignored commands

The editor warns that a command is ignored where it stands directly in an animation and is no frame. The
warnings name such commands by the ranges of their first words. No two commands of a document have the
same range, so leaving out what is named leaves out those commands and nothing else, and then the
evaluation of the program is the same.
-/

namespace TermScene

namespace Command

/-- The commands that stand directly in an animation. -/
def children : Command → List Command
  | .animate children _ _ => children
  | _ => []

/-- The commands that stand directly in an animation and are no frames. -/
def passedOver (command : Command) : List Command :=
  command.children.filter fun
    | .frame .. => false
    | _ => true

theorem passedOver_eq (command : Command) :
    command.passedOver = command.children.filter (!·.isFrame) :=
  List.filter_congr fun child _ => by cases child <;> rfl

theorem mem_passedOver {command child : Command} :
    child ∈ command.passedOver ↔ child ∈ command.children ∧ child.isFrame = false := by
  rw [passedOver_eq, List.mem_filter, Bool.not_eq_true']

end Command

/-- The commands of a program that stand directly in an animation and are no frames, at any depth. -/
def Program.ignored (program : Program) : List Command :=
  (allIn program.commands).flatMap Command.passedOver

mutual

/-- A command without the children of animations whose first words stand in some ranges. -/
def Command.without (ranges : List TextRange) : Command → Command
  | .frame body place => .frame (withoutIn ranges body) place
  | .animate children duration place => .animate (withoutAmong ranges children) duration place
  | command => command

def withoutIn (ranges : List TextRange) : List Command → List Command
  | [] => []
  | first :: later => first.without ranges :: withoutIn ranges later

def withoutAmong (ranges : List TextRange) : List Command → List Command
  | [] => []
  | first :: later =>
      if first.wordRange?.any (· ∈ ranges) then withoutAmong ranges later
      else first.without ranges :: withoutAmong ranges later

end

/-- A program without the children of animations whose first words stand in some ranges. -/
def Program.without (program : Program) (ranges : List TextRange) : Program :=
  { program with commands := withoutIn ranges program.commands }

namespace Editor

/-- The problems which say that a command is ignored. -/
def ignoredAmong (listed : List Problem) : List Problem :=
  listed.filter fun problem => problem.message = ignoredMessage

/-- The warnings that some commands are ignored. -/
def ignoredWarnings (commands : List Command) : List Problem :=
  commands.flatMap fun command => warning command ignoredMessage

theorem ignoredAmong_append (first later : List Problem) :
    ignoredAmong (first ++ later) = ignoredAmong first ++ ignoredAmong later :=
  List.filter_append ..

theorem ignoredWarnings_append (first later : List Command) :
    ignoredWarnings (first ++ later) = ignoredWarnings first ++ ignoredWarnings later :=
  List.flatMap_append

theorem unknownColorMessage_ne (color : String) : unknownColorMessage color ≠ ignoredMessage := by
  intro same
  delta unknownColorMessage ignoredMessage at same
  have first := congrArg (fun message => message.toList.head?) same
  simp [String.toList_append] at first

theorem ignoredAmong_warning (command : Command) :
    ignoredAmong (warning command ignoredMessage) = warning command ignoredMessage := by
  unfold warning
  cases command.place <;> simp [ignoredAmong]

theorem ignoredAmong_warning_of_ne {message : String} (other : message ≠ ignoredMessage)
    (command : Command) : ignoredAmong (warning command message) = [] := by
  unfold warning
  cases command.place <;> simp [ignoredAmong, other]

/-- Of the warnings about a command itself, the one that it is ignored. -/
theorem ignoredAmong_commandWarnings (inAnimation : Bool) (command : Command) :
    ignoredAmong (commandWarnings inAnimation command) =
      ignoredWarnings ([command].filter fun command => inAnimation && !command.isFrame) := by
  have own : ignoredAmong
      (if inAnimation && !command.isFrame then warning command ignoredMessage else []) =
        ignoredWarnings ([command].filter fun command => inAnimation && !command.isFrame) := by
    by_cases isIgnored : (inAnimation && !command.isFrame) = true
    · simp [isIgnored, ignoredWarnings, ignoredAmong_warning]
    · simp [isIgnored, ignoredWarnings, ignoredAmong]
  rw [commandWarnings, ignoredAmong_append, own]
  split
  · rename_i color _
    split
    · exact List.append_nil _
    · rw [ignoredAmong_warning_of_ne (unknownColorMessage_ne color), List.append_nil]
  · exact List.append_nil _

mutual

theorem ignoredAmong_lintCommand (inAnimation : Bool) : (subject : Command) →
    (ignoredAmong (lintCommand inAnimation subject)).Perm
      (ignoredWarnings (([subject].filter fun command => inAnimation && !command.isFrame) ++
        subject.all.flatMap Command.passedOver))
  | .frame body place => by
      have inside := ignoredAmong_lintCommands false body
      simp only [Bool.false_and, List.filter_false, List.nil_append] at inside
      rw [lintCommand, ignoredAmong_append, ignoredAmong_commandWarnings, ignoredWarnings_append]
      exact inside.append_left _
  | .animate children duration place => by
      have inside := ignoredAmong_lintCommands true children
      simp only [Bool.true_and] at inside
      rw [lintCommand, ignoredAmong_append, ignoredAmong_commandWarnings, ignoredWarnings_append,
        Command.all, List.flatMap_cons, Command.passedOver_eq]
      exact inside.append_left _
  | .background .. | .draw .. | .define .. | .rainbow .. | .wait .. => by
      simp only [lintCommand, ignoredAmong_commandWarnings, Command.all, Command.passedOver,
        Command.children, List.flatMap_cons, List.flatMap_nil, List.filter_nil, List.append_nil,
        List.Perm.refl]

theorem ignoredAmong_lintCommands (inAnimation : Bool) : (block : List Command) →
    (ignoredAmong (lintCommands inAnimation block)).Perm
      (ignoredWarnings ((block.filter fun command => inAnimation && !command.isFrame) ++
        (allIn block).flatMap Command.passedOver))
  | [] => .nil
  | first :: later => by
      have both := (ignoredAmong_lintCommand inAnimation first).append
        (ignoredAmong_lintCommands inAnimation later)
      rw [lintCommands, ignoredAmong_append]
      refine both.trans ?_
      have split : (first :: later).filter (fun command => inAnimation && !command.isFrame) =
          [first].filter (fun command => inAnimation && !command.isFrame) ++
            later.filter (fun command => inAnimation && !command.isFrame) :=
        List.filter_append [first] later
      rw [← ignoredWarnings_append, allIn, List.flatMap_append, split]
      apply List.Perm.flatMap_right
      simp only [List.append_assoc]
      exact (List.perm_append_comm_assoc ..).append_left _

end

end Editor

mutual

theorem Command.child_mem_all : (subject : Command) → ∀ command ∈ subject.all,
    ∀ child ∈ command.children, child ∈ subject.all
  | .frame body place, command, inside, child, isChild => by
      rcases List.mem_cons.mp inside with rfl | inside
      · exact absurd isChild List.not_mem_nil
      · exact List.mem_cons_of_mem _ (child_mem_allIn body command inside child isChild)
  | .animate children duration place, command, inside, child, isChild => by
      rcases List.mem_cons.mp inside with rfl | inside
      · exact List.mem_cons_of_mem _ (mem_allIn_of_mem isChild)
      · exact List.mem_cons_of_mem _ (child_mem_allIn children command inside child isChild)
  | .background .., command, inside, child, isChild | .draw .., command, inside, child, isChild
  | .define .., command, inside, child, isChild | .rainbow .., command, inside, child, isChild
  | .wait .., command, inside, child, isChild => by
      rw [List.mem_singleton.mp inside] at isChild
      exact absurd isChild List.not_mem_nil

/-- The children of the animations in a block are themselves among the commands in it. -/
theorem child_mem_allIn : (block : List Command) → ∀ command ∈ allIn block,
    ∀ child ∈ command.children, child ∈ allIn block
  | [], command, inside, child, isChild => absurd inside List.not_mem_nil
  | first :: later, command, inside, child, isChild => by
      rcases List.mem_append.mp inside with inside | inside
      · exact List.mem_append_left _ (first.child_mem_all command inside child isChild)
      · exact List.mem_append_right _ (child_mem_allIn later command inside child isChild)

end

section Without

variable {ranges : List TextRange}

/-- Whether the ranges are those of the children of animations that are no frames, among the children
of some commands. -/
def Tells (ranges : List TextRange) (commands : List Command) : Prop :=
  ∀ command ∈ commands, ∀ child ∈ command.children,
    child.wordRange?.any (· ∈ ranges) = !child.isFrame

mutual

theorem Command.without_eq_played : (subject : Command) → Tells ranges subject.all →
    subject.without ranges = subject.played
  | .frame body place, tells => by
      rw [Command.without, Command.played, withoutIn_eq_playedIn body]
      exact fun command inside => tells command (List.mem_cons_of_mem _ inside)
  | .animate children duration place, tells => by
      rw [Command.without, Command.played, withoutAmong_eq_playedFrames children]
      · exact tells _ List.mem_cons_self
      · exact fun command inside => tells command (List.mem_cons_of_mem _ inside)
  | .background .., _ | .draw .., _ | .define .., _ | .rainbow .., _ | .wait .., _ => rfl

theorem withoutIn_eq_playedIn : (block : List Command) → Tells ranges (allIn block) →
    withoutIn ranges block = playedIn block
  | [], _ => rfl
  | first :: later, tells => by
      rw [withoutIn, playedIn, first.without_eq_played, withoutIn_eq_playedIn later]
      · exact fun command inside => tells command (List.mem_append_right _ inside)
      · exact fun command inside => tells command (List.mem_append_left _ inside)

theorem withoutAmong_eq_playedFrames : (children : List Command) →
    (∀ child ∈ children, child.wordRange?.any (· ∈ ranges) = !child.isFrame) →
    Tells ranges (allIn children) → withoutAmong ranges children = playedFrames children
  | [], _, _ => rfl
  | .frame body place :: later, isTold, tells => by
      have isFrame := isTold (.frame body place) List.mem_cons_self
      rw [withoutAmong, isFrame, Command.without, playedFrames, withoutIn_eq_playedIn body,
        withoutAmong_eq_playedFrames later]
      · rfl
      · exact fun child inside => isTold child (List.mem_cons_of_mem _ inside)
      · exact fun command inside => tells command (List.mem_append_right _ inside)
      · exact fun command inside =>
          tells command (List.mem_append_left _ (List.mem_cons_of_mem _ inside))
  | .background .. :: later, isTold, tells | .draw .. :: later, isTold, tells
  | .define .. :: later, isTold, tells | .rainbow .. :: later, isTold, tells
  | .wait .. :: later, isTold, tells | .animate .. :: later, isTold, tells => by
      rw [withoutAmong, isTold _ List.mem_cons_self, withoutAmong_eq_playedFrames later]
      · rfl
      · exact fun child inside => isTold child (List.mem_cons_of_mem _ inside)
      · exact fun command inside => tells command (List.mem_append_right _ inside)

end

end Without

namespace Editor

/-- What the warnings about ignored commands in a document amount to. There is one on the first word of
each child of an animation that is no frame, at any depth, and no other. Leaving out the children of
animations that are named so leaves the frames, and nothing of it changes an evaluation. -/
structure IgnoresUnplayed (source uri : String) (document : ReadDocument) (named : List TextRange) :
    Prop where
  warned : ∃ listed, problems source uri = .ok (listed, document.read.notices) ∧
    named = (ignoredAmong listed).map Problem.range
  exact : (named.map some).Perm (document.read.program.ignored.map Command.wordRange?)
  words : DistinctWords document.tokens (allIn document.read.program.commands)
  left : document.read.program.without named = document.read.program.played
  harmless : ∀ settings lettering,
    (document.read.program.without named).evaluate settings lettering =
      document.read.program.evaluate settings lettering

/-- The warnings that some commands are ignored are on their first words. -/
theorem ranges_ignoredWarnings {commands : List Command}
    (placed : ∀ command ∈ commands, ∃ range, command.wordRange? = some range) :
    (ignoredWarnings commands).map (fun problem => some problem.range) =
      commands.map Command.wordRange? := by
  induction commands with
  | nil => rfl
  | cons first later ih =>
      have others := ih fun command inside => placed command (List.mem_cons_of_mem _ inside)
      rcases placed first List.mem_cons_self with ⟨range, isRange⟩
      rw [ignoredWarnings, List.flatMap_cons, ← ignoredWarnings, List.map_append, others,
        List.map_cons]
      unfold Command.wordRange? at isRange ⊢
      unfold warning
      cases place : first.place with
      | none => simp [place] at isRange
      | some place => rfl

theorem tells_of_perm {tokens : List Token} {program : Program} {named : List TextRange}
    (words : DistinctWords tokens (allIn program.commands))
    (exact : (named.map some).Perm (program.ignored.map Command.wordRange?)) :
    Tells named (allIn program.commands) := by
  intro command inside child isChild
  have childInside := child_mem_allIn program.commands command inside child isChild
  rcases words.covered child childInside with ⟨_, _, range, isRange, _⟩
  have isNamed : range ∈ named ↔ some range ∈ program.ignored.map Command.wordRange? := by
    rw [← exact.mem_iff, List.mem_map_of_injective (Option.some_injective _)]
  rw [isRange, Option.any_some]
  by_cases isFrame : child.isFrame = true
  · -- A command that is ignored and has the range of the frame would be the frame.
    have notNamed : range ∉ named := by
      rw [isNamed, List.mem_map]
      rintro ⟨other, isIgnored, isOther⟩
      rcases List.mem_flatMap.mp isIgnored with ⟨animation, inAnimation, isPassed⟩
      rcases Command.mem_passedOver.mp isPassed with ⟨isOtherChild, noFrame⟩
      have otherInside := child_mem_allIn program.commands animation inAnimation other isOtherChild
      have same := List.inj_on_of_nodup_map words.distinct otherInside childInside
        (isOther.trans isRange.symm)
      rw [same, isFrame] at noFrame
      cases noFrame
    simp [notNamed, isFrame]
  · have isNamed : range ∈ named := by
      rw [isNamed, ← isRange]
      refine List.mem_map_of_mem (List.mem_flatMap.mpr ⟨command, inside, ?_⟩)
      exact Command.mem_passedOver.mpr ⟨isChild, by simpa using isFrame⟩
    simp [isNamed, isFrame]

/-- In every document that can be read, the warnings about ignored commands tell which commands can be
left out. -/
theorem ignored_of_readDocument {source uri : String} {document : ReadDocument}
    (read : readDocument source uri = .ok document) :
    ∃ named, IgnoresUnplayed source uri document named := by
  rcases derives_of_readDocument read with ⟨tokensRead, front, begins, derives⟩
  have words := derives.distinctWords (inOrder_of_tokensOf tokensRead) begins
  let listed := lintCommands false document.read.program.commands
  have warned : (ignoredAmong listed).Perm (ignoredWarnings document.read.program.ignored) := by
    simpa [listed, Program.ignored] using
      ignoredAmong_lintCommands false document.read.program.commands
  have placed : ∀ command ∈ document.read.program.ignored,
      ∃ range, command.wordRange? = some range := by
    intro command isIgnored
    rcases List.mem_flatMap.mp isIgnored with ⟨animation, inside, isPassed⟩
    have isChild := (Command.mem_passedOver.mp isPassed).1
    rcases words.covered command (child_mem_allIn _ animation inside command isChild) with
      ⟨_, _, range, isRange, _⟩
    exact ⟨range, isRange⟩
  have exact : (((ignoredAmong listed).map Problem.range).map some).Perm
      (document.read.program.ignored.map Command.wordRange?) := by
    rw [List.map_map, ← ranges_ignoredWarnings placed]
    exact warned.map _
  have left : document.read.program.without ((ignoredAmong listed).map Problem.range) =
      document.read.program.played := by
    rw [Program.without, Program.played, withoutIn_eq_playedIn _ (tells_of_perm words exact)]
  refine ⟨_, ⟨listed, ?_, rfl⟩, exact, words, left, ?_⟩
  · simp only [problems, read, listed]
  · intro settings lettering
    rw [left, Program.evaluate_played]

/-- A frame that is played, and a wait beside it that is not and whose first word is named. -/
theorem ignored_of_readDocument_wait :
    ∃ document named, readDocument "s\x7banimate\x7bframe\x7b\x7dwait 9;\x7dfor 9;\x7d" "a" = .ok document ∧
      document.read.program.ignored.length = 1 ∧ named = [⟨⟨0, 17⟩, ⟨0, 21⟩⟩] ∧
        IgnoresUnplayed "s\x7banimate\x7bframe\x7b\x7dwait 9;\x7dfor 9;\x7d" "a" document named := by
  let at' (kind : TokenKind) (text : String) (column : Int) : Token :=
    ⟨kind, text, some ⟨1, column, column - 1, some "a"⟩⟩
  have tokensRead : tokensOf "s\x7banimate\x7bframe\x7b\x7dwait 9;\x7dfor 9;\x7d" (some "a") =
      .ok [at' .identifier "s" 1, at' .leftBrace "\x7b" 2, at' .identifier "animate" 3,
        at' .leftBrace "\x7b" 10, at' .identifier "frame" 11, at' .leftBrace "\x7b" 16,
        at' .rightBrace "\x7d" 17, at' .identifier "wait" 18, at' .number "9" 23,
        at' .semicolon ";" 24, at' .rightBrace "\x7d" 25, at' .identifier "for" 26,
        at' .number "9" 30, at' .semicolon ";" 31, at' .rightBrace "\x7d" 32] := by
    decide +kernel
  have isFrame : DerivesCommand
      [at' .identifier "frame" 11, at' .leftBrace "\x7b" 16, at' .rightBrace "\x7d" 17] (.frame [] _) :=
    @DerivesCommand.frame _ _ _ [] _ ⟨rfl, rfl⟩ rfl .none rfl
  have isWait : DerivesCommand
      [at' .identifier "wait" 18, at' .number "9" 23, at' .semicolon ";" 24] (.wait 9 _) :=
    .plain (.wait ⟨rfl, rfl⟩ (Token.hasCount_nine rfl rfl) rfl)
  have isAnimation : DerivesCommand (at' .identifier "animate" 3 :: at' .leftBrace "\x7b" 10 ::
      ([at' .identifier "frame" 11, at' .leftBrace "\x7b" 16, at' .rightBrace "\x7d" 17] ++
        ([at' .identifier "wait" 18, at' .number "9" 23, at' .semicolon ";" 24] ++ [])) ++
      [at' .rightBrace "\x7d" 25, at' .identifier "for" 26, at' .number "9" 30,
        at' .semicolon ";" 31]) (.animate _ 9 _) :=
    .animate ⟨rfl, rfl⟩ rfl (.some isFrame (.some isWait .none)) rfl rfl (Token.hasCount_nine rfl rfl) rfl
  have derives : DerivesProgram (at' .identifier "s" 1 :: at' .leftBrace "\x7b" 2 :: _ ++
      [at' .rightBrace "\x7d" 32]) _ :=
    .program rfl rfl (.some isAnimation .none) rfl
  rcases readDocument_of_derives tokensRead derives (List.prefix_refl _) with
    ⟨document, read, _, program⟩
  rcases ignored_of_readDocument read with ⟨named, holds⟩
  have onWait : document.read.program.ignored.map Command.wordRange? =
      [some ⟨⟨0, 17⟩, ⟨0, 21⟩⟩] := by
    rw [program]
    decide
  have isNamed := List.perm_singleton.mp (onWait ▸ holds.exact)
  refine ⟨document, named, read, ?_, ?_, holds⟩
  · simpa using congrArg List.length onWait
  · exact List.map_injective_iff.mpr (Option.some_injective _) isNamed

end Editor

end TermScene
