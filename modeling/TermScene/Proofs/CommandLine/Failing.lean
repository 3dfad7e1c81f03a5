import TermScene.Proofs.CommandLine.Clock

/-!
# Commands that fail

A command goes through stages: it scans a source, reads a program from the tokens, evaluates the program
and shows the scene. What it is asked for says how many of them it needs. The output is written to only
when all of these are done but the showing of the scene, and that does not fail. So a command fails
exactly if one of the other stages does, and then nothing is written to the output.
-/

namespace TermScene

/-- A run that exits with one if something fails and with zero if not, and that writes nothing to the
output where it exits with one. -/
structure CommandRun.EndsCleanly (run : CommandRun) (fails : Prop) : Prop where
  ending : run.ending = .exit 0 ∨ run.ending = .exit 1
  failing : run.ending = .exit 1 ↔ fails
  clean : run.ending = .exit 1 → ∀ text, .output text ∉ run.events

namespace CommandRun.EndsCleanly

variable {run : CommandRun} {fails : Prop}

theorem of_done (done : run.ending = .exit 0) (works : ¬fails) : run.EndsCleanly fails := by
  have notFailed : run.ending ≠ .exit 1 := by simp [done]
  exact ⟨.inl done, ⟨fun failed => absurd failed notFailed, fun isFailing => absurd isFailing works⟩,
    fun failed => absurd failed notFailed⟩

theorem of_failed (failed : run.ending = .exit 1) (silent : ∀ text, .output text ∉ run.events)
    (isFailing : fails) : run.EndsCleanly fails :=
  ⟨.inr failed, ⟨fun _ => isFailing, fun _ => failed⟩, fun _ => silent⟩

/-- Events before a run change nothing about its end if they write nothing to the output. -/
theorem after {events : List CommandEvent} (ends : run.EndsCleanly fails)
    (silent : ∀ text, .output text ∉ events) : (run.after events).EndsCleanly fails := by
  refine ⟨ends.ending, ends.failing, ?_⟩
  intro failed text
  simp only [CommandRun.after, List.mem_append, not_or]
  exact ⟨silent text, ends.clean failed text⟩

end CommandRun.EndsCleanly

/-- A source that is read as a program. -/
def ReadsAs (source path : String) (program : Program) : Prop :=
  ∃ tokens read, tokensOf source (some path) = .ok tokens ∧
    programOfTokens tokens source path = .ok read ∧ read.program = program

namespace Invocation

/-- The settings that a program is evaluated with. -/
def settings (invocation : Invocation) (surroundings : Surroundings) : Settings :=
  (Settings.ofEnvironment surroundings.environment surroundings.outputIsTerminal).1.override
    invocation.overrides

/-- An evaluation as the command does it. -/
def evaluation (invocation : Invocation) (surroundings : Surroundings) (program : Program) :
    Except DrawFailure Scene :=
  (program.evaluate (invocation.settings surroundings) surroundings.lettering).outcome

/-- A stage fails that a command needs: scanning is always needed, reading for everything but the
tokens, and evaluation for showing a scene. -/
inductive StageFails (invocation : Invocation) (surroundings : Surroundings) (source path : String) :
    Prop where
  | scanning {error : SourceError} (fails : tokensOf source (some path) = .error error) :
      invocation.StageFails surroundings source path
  | reading {tokens : List Token} {failure : ReadFailure}
      (needed : invocation.inspection ≠ some .tokens)
      (scanned : tokensOf source (some path) = .ok tokens)
      (fails : programOfTokens tokens source path = .error failure) :
      invocation.StageFails surroundings source path
  | evaluating {program : Program} {failure : DrawFailure} (needed : invocation.inspection = none)
      (reads : ReadsAs source path program)
      (fails : invocation.evaluation surroundings program = .error failure) :
      invocation.StageFails surroundings source path

/-- A command that finds a text in UTF-8 at the path it is given, with the source that the text is. -/
structure Opens (invocation : Invocation) (surroundings : Surroundings) (source path : String) : Prop
  where
  input : invocation.input.map plainPath = some path
  isText : ∃ content text, surroundings.find path = .octets content ∧ Utf8.decode content = .ok text ∧
    source = String.ofList (withNewlines text.toList)

/-- A scene is shown without being interrupted and for a bounded time, if the source comes to one. -/
structure PlaysToEnd (invocation : Invocation) (surroundings : Surroundings) (source path : String) :
    Prop where
  uninterrupted : surroundings.interruptAt = none
  bounded : ∀ program scene, ReadsAs source path program →
    invocation.evaluation surroundings program = .ok scene →
      invocation.IsBounded (invocation.settings surroundings) scene

variable {invocation : Invocation} {surroundings : Surroundings} {source path : String}

section Stages

variable {tokens : List Token} {read : ReadProgram}
  (scanned : tokensOf source (some path) = .ok tokens)

include scanned

theorem not_stageFails_of_tokens (isTokens : invocation.inspection = some .tokens) :
    ¬invocation.StageFails surroundings source path := by
  rintro (fails | ⟨needed, _, _⟩ | ⟨needed, _, _⟩)
  · simp [scanned] at fails
  · exact needed isTokens
  · simp [isTokens] at needed

variable (reads : programOfTokens tokens source path = .ok read)

include reads

theorem readsAs_iff {program : Program} : ReadsAs source path program ↔ read.program = program := by
  simp [ReadsAs, scanned, reads]

/-- When a program is read, all that can still fail is its evaluation. -/
theorem stageFails_iff_of_reads :
    invocation.StageFails surroundings source path ↔ invocation.inspection = none ∧
      ∃ failure, invocation.evaluation surroundings read.program = .error failure := by
  constructor
  · rintro (fails | ⟨needed, scanned', fails⟩ | ⟨needed, isRead, fails⟩)
    · simp [scanned] at fails
    · rw [scanned, Except.ok.injEq] at scanned'
      subst scanned'
      simp [reads] at fails
    · rw [readsAs_iff scanned reads] at isRead
      subst isRead
      exact ⟨needed, _, fails⟩
  · rintro ⟨needed, failure, fails⟩
    exact .evaluating needed ((readsAs_iff scanned reads).mpr rfl) fails

end Stages

theorem settings_isTimely (invocation : Invocation) (surroundings : Surroundings) :
    (invocation.settings surroundings).IsTimely (2 ^ 1024) := by
  have times : (invocation.settings surroundings).rainbowStep = 10 ∧
      (invocation.settings surroundings).minFrameDelay = 50 := by
    unfold settings Settings.ofEnvironment
    split <;> split <;> (try split) <;> exact ⟨rfl, rfl⟩
  have large : (2 : ℤ) ^ 6 ≤ 2 ^ 1024 := pow_le_pow_right₀ (by norm_num) (by norm_num)
  constructor
  · rw [times.1]
    exact le_trans (by norm_num) large
  · rw [times.2]
    exact le_trans (by norm_num) large

section Runs

theorem output_not_mem_report (invocation : Invocation) (progress : Progress) (text : String) :
    .output text ∉ invocation.report progress := by
  unfold report
  split <;> simp

theorem output_not_mem_warnings (notices : List Notice) (text : String) :
    .output text ∉ warnings notices := by
  simp [warnings]

variable {fails : Prop}

theorem fail_endsCleanly (isFailing : fails) (message : String) :
    (surroundings.fail message).EndsCleanly fails :=
  .of_failed rfl (by simp [Surroundings.fail]) isFailing

theorem breakDown_endsCleanly (isFailing : fails) (message : String) :
    (invocation.breakDown surroundings message).EndsCleanly fails :=
  (fail_endsCleanly isFailing message).after (invocation.output_not_mem_report .broken)

theorem explain_endsCleanly (isFailing : fails) (failure : ReadFailure) :
    (invocation.explain surroundings source path failure).EndsCleanly fails := by
  cases failure with
  | source error =>
      simp only [explain]
      split
      · exact .of_failed rfl (by simp) isFailing
      · exact fail_endsCleanly isFailing error.message
  | notANumeral text => exact breakDown_endsCleanly isFailing _
  | unbounded cause => exact breakDown_endsCleanly isFailing _

theorem play_eq (invocation : Invocation) (surroundings : Surroundings) (path : String)
    (program : Program) :
    invocation.play surroundings path program =
      CommandRun.after
        (warnings (Settings.ofEnvironment surroundings.environment surroundings.outputIsTerminal).2 ++
          invocation.report (.starting path (invocation.settings surroundings)) ++
          warnings (program.evaluate (invocation.settings surroundings)
            surroundings.lettering).stage.notices.toList)
        (match invocation.evaluation surroundings program with
        | .error failure =>
            (invocation.breakDown surroundings failure.message).after
              (onTerminal ({} : Display).leave.1)
        | .ok scene =>
            (invocation.present surroundings (invocation.settings surroundings) {} scene).after
              (invocation.report
                (.evaluated program.commands.length scene.frames.size scene.timeline.size))) := rfl

/-- Showing a program fails if its evaluation does, and the output is not written to before. -/
theorem play_endsCleanly {program : Program} (uninterrupted : surroundings.interruptAt = none)
    (isTimely : ∀ scene, invocation.evaluation surroundings program = .ok scene →
      ∀ step ∈ scene.timeline.toList, step.IsTimely (2 ^ 1024))
    (bounded : ∀ scene, invocation.evaluation surroundings program = .ok scene →
      invocation.IsBounded (invocation.settings surroundings) scene) :
    (invocation.play surroundings path program).EndsCleanly
      (∃ failure, invocation.evaluation surroundings program = .error failure) := by
  rw [play_eq]
  refine .after ?_ (by simp [output_not_mem_report, output_not_mem_warnings])
  cases evaluated : invocation.evaluation surroundings program with
  | error failure =>
      -- The display was not drawn on, so that closing it writes nothing.
      have silent : onTerminal ({} : Display).leave.1 = [] := by
        rw [Display.leave_of_shown rfl]
        rfl
      refine (breakDown_endsCleanly ⟨failure, rfl⟩ failure.message).after ?_
      simp [silent]
  | ok scene =>
      refine .of_done ?_ (by simp)
      exact present_ending (isTimely scene evaluated) uninterrupted (bounded scene evaluated) {}

theorem carryOut_endsCleanly
    (plays : invocation.inspection = none → invocation.PlaysToEnd surroundings source path) :
    (invocation.carryOut surroundings source path).EndsCleanly
      (invocation.StageFails surroundings source path) := by
  unfold carryOut
  cases scanned : tokensOf source (some path) with
  | error error => exact explain_endsCleanly (.scanning scanned) _
  | ok tokens =>
      refine .after ?_ (invocation.output_not_mem_report _)
      by_cases isTokens : invocation.inspection = some .tokens
      · rw [if_pos isTokens]
        exact .of_done rfl (not_stageFails_of_tokens scanned isTokens)
      · rw [if_neg isTokens]
        cases reads : programOfTokens tokens source path with
        | error failure => exact explain_endsCleanly (.reading isTokens scanned reads) _
        | ok read =>
            have isRead := (readsAs_iff scanned reads).mpr rfl
            refine .after ?_ (output_not_mem_warnings _)
            rw [stageFails_iff_of_reads scanned reads]
            cases asked : invocation.inspection with
            | some inspection =>
                cases inspection with
                | tokens => exact absurd asked isTokens
                | check => exact .of_done rfl (by simp)
                | commands => exact .of_done rfl (by simp)
            | none =>
                rcases plays asked with ⟨uninterrupted, bounded⟩
                simp only [true_and]
                refine play_endsCleanly uninterrupted ?_ (fun scene => bounded _ scene isRead)
                intro scene evaluated
                exact Program.isTimely_of_evaluate (settings_isTimely invocation surroundings)
                  (abs_duration_le_of_read scanned reads) evaluated

end Runs

end Invocation

/-- A command that finds a text at its path exits with one exactly if a stage fails that it needs, and
else with zero. When it fails, it has written nothing to the output, however far it came. -/
theorem commandRun_endsCleanly {words : List String} {surroundings : Surroundings}
    {invocation : Invocation} {source path : String}
    (asked : Invocation.ofWords words = .ok invocation)
    (opens : invocation.Opens surroundings source path)
    (plays : invocation.inspection = none → invocation.PlaysToEnd surroundings source path) :
    (commandRun words surroundings).EndsCleanly
      (invocation.StageFails surroundings source path) := by
  rcases opens.isText with ⟨content, text, found, decoded, isSource⟩
  have carried : commandRun words surroundings = invocation.carryOut surroundings source path := by
    simp only [commandRun, asked, Invocation.run, opens.input, found, decoded, isSource]
  rw [carried]
  exact Invocation.carryOut_endsCleanly plays

/-- A wait, and a text for which the lettering breaks down. -/
theorem commandRun_endsCleanly_lettering :
    ∃ (surroundings : Surroundings) (invocation : Invocation) (source : String),
      source = "s\x7bwait 9;text \"A\" at (9,9) size 9 color \"red\";\x7d" ∧
        Invocation.ofWords ["--loops", "1", "--font", "crash", "f"] = .ok invocation ∧
        invocation.Opens surroundings source "f" ∧
        (invocation.inspection = none → invocation.PlaysToEnd surroundings source "f") ∧
        (commandRun ["--loops", "1", "--font", "crash", "f"] surroundings).ending = .exit 1 ∧
        (commandRun ["--loops", "1", "--font", "crash", "f"] surroundings).EndsCleanly
          (invocation.StageFails surroundings source "f") := by
  let source := "s\x7bwait 9;text \"A\" at (9,9) size 9 color \"red\";\x7d"
  let surroundings : Surroundings := { find := fun _ => .octets source.toUTF8.toList }
  let invocation : Invocation := { input := some "f", font := some "crash", loops := .atMost 1 }
  have asked : Invocation.ofWords ["--loops", "1", "--font", "crash", "f"] = .ok invocation := by
    decide +kernel
  have opens : invocation.Opens surroundings source "f" :=
    ⟨by decide +kernel, source.toUTF8.toList, source, rfl, by decide +kernel, by decide +kernel⟩
  have plays : invocation.PlaysToEnd surroundings source "f" :=
    ⟨rfl, fun _ _ _ _ => .atMost rfl fun _ => by decide +kernel⟩
  let at' (kind : TokenKind) (text : String) (column : Int) : Token :=
    ⟨kind, text, some ⟨1, column, column - 1, some "f"⟩⟩
  have scanned : tokensOf source (some "f") =
      .ok [at' .identifier "s" 1, at' .leftBrace "\x7b" 2, at' .identifier "wait" 3,
        at' .number "9" 8, at' .semicolon ";" 9, at' .identifier "text" 10, at' .string "\"A\"" 15,
        at' .identifier "at" 19, at' .leftParen "(" 22, at' .number "9" 23, at' .comma "," 24,
        at' .number "9" 25, at' .rightParen ")" 26, at' .identifier "size" 28, at' .number "9" 33,
        at' .identifier "color" 35, at' .string "\"red\"" 41, at' .semicolon ";" 46,
        at' .rightBrace "\x7d" 47] := by
    decide +kernel
  have isWait : DerivesCommand
      [at' .identifier "wait" 3, at' .number "9" 8, at' .semicolon ";" 9] (.wait 9 _) :=
    .plain (.wait ⟨rfl, rfl⟩ (Token.hasCount_nine rfl rfl) rfl)
  have isPoint : DerivesPoint [at' .leftParen "(" 22, at' .number "9" 23, at' .comma "," 24,
      at' .number "9" 25, at' .rightParen ")" 26] _ _ :=
    .point rfl (Token.hasNumber_nine rfl rfl) rfl (Token.hasNumber_nine rfl rfl) rfl
  have isContent : (at' .string "\"A\"" 15).HasContent "A" :=
    Token.hasContent_iff.mpr ⟨rfl, by decide⟩
  have isText : DerivesCommand (at' .identifier "text" 10 :: at' .string "\"A\"" 15 ::
      at' .identifier "at" 19 :: _ ++ [at' .identifier "size" 28, at' .number "9" 33,
        at' .identifier "color" 35, at' .string "\"red\"" 41, at' .semicolon ";" 46]) _ :=
    .plain (.text ⟨rfl, rfl⟩ isContent rfl isPoint rfl (Token.hasCount_nine rfl rfl) rfl rfl rfl)
  have derives : DerivesProgram (at' .identifier "s" 1 :: at' .leftBrace "\x7b" 2 :: _ ++
      [at' .rightBrace "\x7d" 47]) _ :=
    .program rfl rfl (.some isWait (.some isText .none)) rfl
  have ends := commandRun_endsCleanly asked opens fun _ => plays
  rcases Parser.programOfTokens_of_derives source "f" derives (List.prefix_refl _) with
    ⟨read, reads, same⟩
  have fails : invocation.StageFails surroundings source "f" :=
    @Invocation.StageFails.evaluating _ _ _ _ _ (.lettering "figlet crashed") rfl
      ⟨_, read, scanned, reads, same⟩ (by decide +kernel)
  exact ⟨surroundings, invocation, source, rfl, asked, opens, fun _ => plays, ends.failing.mpr fails,
    ends⟩

end TermScene
