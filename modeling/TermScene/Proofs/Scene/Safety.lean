import TermScene.Proofs.Program.Magnitudes
import TermScene.Proofs.Raster.Course
import TermScene.Proofs.Raster.Memory
import TermScene.Proofs.Scene.Pauses
import TermScene.Proofs.Scene.Timeline

/-!
# Programs that are read can be evaluated

Nothing in a program that is read can make its evaluation fail but a drawing without room for its grid, if
its numerals are not too large for doubles and fonts do not break down. The timing of an animation has no
quotient by zero or beyond the doubles, since its duration is not negative and it has a frame; rainbow text
always has its colours; and the walk along every line stays in its grid.

The steps of the scene take the time that they should: no pause is negative, and what an animation shows
is held for a millisecond at least.
-/

namespace TermScene

namespace Timing

variable {duration minDelay : ℤ} {count exponent : ℕ} {timing : Timing}

/-- An animation with a frame has a timing, whatever the least delay. -/
theorem exists_ofAnimation (positive : 0 < count) (nonneg : 0 ≤ duration) (bound : duration ≤ 2 ^ exponent)
    (small : exponent < 1023) (minDelay : ℤ) :
    ∃ timing, ofAnimation duration count minDelay = .ok timing := by
  have hasFrame : (count : ℤ) ≠ 0 := by omega
  simp only [ofAnimation, if_neg hasFrame]
  generalize max minDelay (Int.fdiv duration count) = delay
  by_cases none : delay ≤ 0
  · exact ⟨_, if_pos none⟩
  · have atLeast : (1 : ℚ) ≤ delay := by exact_mod_cast (show 1 ≤ delay by omega)
    have nonnegDuration : (0 : ℚ) ≤ duration := by exact_mod_cast nonneg
    have quotientBound : (duration : ℚ) / delay ≤ 2 ^ exponent := by
      calc (duration : ℚ) / delay ≤ duration := div_le_self nonnegDuration atLeast
        _ ≤ 2 ^ exponent := by exact_mod_cast bound
    rcases Binary64.IsSize.round (div_nonneg nonnegDuration (by linarith)) quotientBound small with
      ⟨quotient, isQuotient, -⟩
    rw [if_neg none, Binary64.ratio, if_neg (by omega), isQuotient]
    exact ⟨_, rfl⟩

/-- A frame that is shown is held for a millisecond at least. -/
theorem delay_pos_of_steps (timed : ofAnimation duration count minDelay = .ok timing)
    (shown : 0 < timing.steps) : 1 ≤ timing.delay := by
  have delay := delay_of_ofAnimation timed
  simp only [ofAnimation] at timed
  split_ifs at timed with noFrames noDelay
  · rw [← Except.ok.inj timed] at shown
    exact absurd shown (lt_irrefl 0)
  · omega

end Timing

/-- Neither font breaks down, whatever the text. -/
def Settings.HasWorkingFonts (settings : Settings) (lettering : Lettering) : Prop :=
  ∀ font ∈ [settings.font, settings.smallFont], ∀ text reason, lettering font text ≠ .broken reason

section Drawing

variable {settings : Settings} {lettering : Lettering} {exponent : ℕ}

/-- A drawing is made, unless there is no room for its grid. -/
theorem Drawing.render_outcome {drawing : Drawing} (works : settings.HasWorkingFonts lettering)
    (sizes : ∀ number ∈ drawing.numbers, number.IsSize exponent) (small : exponent + 1 < 1023) :
    (∃ drawn, drawing.render settings lettering = .ok drawn) ∨
      ∃ cause, drawing.render settings lettering = .error (.noMask cause) ∧ cause.IsRoom ∧
        ¬drawing.Fits := by
  have masked {mask : Except MaskFailure Mask} (made : MadeIf drawing.Fits mask) (glyph color : String) :
      (∃ drawn, drawMask mask glyph color settings.color = .ok drawn) ∨
        ∃ cause, drawMask mask glyph color settings.color = .error (.noMask cause) ∧ cause.IsRoom ∧
          ¬drawing.Fits := by
    rcases made with ⟨cells, rfl⟩ | ⟨cause, rfl, isRoom⟩
    · exact .inl ⟨_, rfl⟩
    · exact .inr ⟨cause, rfl, isRoom⟩
  cases drawing with
  | circle x y radius fill =>
      have isSize : radius.IsSize exponent := sizes radius (by simp [Drawing.numbers])
      rw [render]
      exact masked (discMask_madeIf isSize small) dotGlyph fill
  | rect x y width height fill =>
      have isWidth : width.IsSize exponent := sizes width (by simp [Drawing.numbers])
      have isHeight : height.IsSize exponent := sizes height (by simp [Drawing.numbers])
      rw [render]
      exact masked (rectMask_madeIf isWidth isHeight) blockGlyph fill
  | text content x y size color =>
      have isFont : settings.fontFor size ∈ [settings.font, settings.smallFont] := by
        rw [Settings.fontFor]
        split <;> simp
      rw [render, drawText]
      cases lettered : lettering (settings.fontFor size) content with
      | drawn lines => exact .inl ⟨_, rfl⟩
      | unusable reason => exact .inl ⟨_, rfl⟩
      | broken reason => exact absurd lettered (works _ isFont content reason)
  | line x1 y1 x2 y2 color =>
      rw [render]
      exact masked (segmentMask_madeIf sizes) dotGlyph color

end Drawing

/-- A turn that cannot fail, but with an excuse if there is no room for its drawing. -/
structure Turn.IsExcused (exponent : ℕ) (excuse : Prop) (turn : Turn) : Prop where
  isMeasured : turn.command.IsMeasured exponent
  room : ∀ drawing, turn.command.drawing? = some drawing → ¬drawing.Fits → excuse

namespace Evaluating

variable {α β : Type} {excuse : Prop} {exponent : ℕ} {settings : Settings} {lettering : Lettering}

/-- A part of an evaluation that comes to its end or has an excuse, for which there is no room for a
grid. -/
def Ends (excuse : Prop) (part : Evaluating α) : Prop :=
  ∀ stage, (∃ value after, part stage = .ok value after) ∨
    ∃ cause after, part stage = .error (.noMask cause) after ∧ cause.IsRoom ∧ excuse

namespace Ends

theorem pure (value : α) : Ends excuse (Pure.pure value : Evaluating α) :=
  fun stage => .inl ⟨value, stage, rfl⟩

theorem modify (change : Stage → Stage) : Ends excuse (modify change : Evaluating PUnit) :=
  fun stage => .inl ⟨⟨⟩, change stage, rfl⟩

theorem get : Ends excuse (get : Evaluating Stage) := fun stage => .inl ⟨stage, stage, rfl⟩

theorem record (steps : List Step) : Ends excuse (record steps) := modify _

theorem bind {first : Evaluating α} {next : α → Evaluating β} (isFirst : Ends excuse first)
    (isNext : ∀ value, Ends excuse (next value)) : Ends excuse (first >>= next) := by
  intro stage
  rcases isFirst stage with ⟨value, between, ran⟩ | ⟨cause, after, failed, isRoom⟩
  · have goesOn : (first >>= next) stage = next value between := by
      simp [Bind.bind, EStateM.bind, ran]
    rw [goesOn]
    exact isNext value between
  · have stops : (first >>= next) stage = .error (.noMask cause) after := by
      simp [Bind.bind, EStateM.bind, failed]
    exact .inr ⟨cause, after, stops, isRoom⟩

theorem drawn {result : Except DrawFailure (String × List Notice)}
    (outcome : (∃ made, result = .ok made) ∨
      ∃ cause, result = .error (.noMask cause) ∧ cause.IsRoom ∧ excuse) : Ends excuse (drawn result) := by
  rcases outcome with ⟨made, rfl⟩ | ⟨cause, rfl, isRoom⟩
  · exact (modify _).bind fun _ => .pure _
  · exact fun stage => .inr ⟨cause, stage, rfl, isRoom⟩

end Ends

theorem ends_animate {duration : ℤ} (nonneg : 0 ≤ duration) (bound : duration ≤ 2 ^ exponent)
    (small : exponent < 1023) (frames : List String) : Ends excuse (animate settings frames duration) := by
  unfold animate
  split
  · exact .modify _
  · rename_i isPlayed
    have positive : 0 < frames.length := by
      rw [List.length_pos_iff]
      simpa using isPlayed
    rcases Timing.exists_ofAnimation positive nonneg bound small settings.minFrameDelay with
      ⟨timing, timed⟩
    rw [timed]
    exact .bind .get fun _ => .record _

mutual

/-- Where no turn can fail without an excuse, no command can. -/
theorem ends_command (works : settings.HasWorkingFonts lettering) (small : exponent + 1 < 1023) :
    (subject : Command) → (before : List Command) → (output : String) →
    (∀ turn ∈ turnsAt before subject, turn.IsExcused exponent excuse) →
      Ends excuse (command settings lettering subject output)
  | .background color place, before, output, excused => .bind (.modify _) fun _ => .pure _
  | .draw drawing place, before, output, excused => by
      -- No other turn can need its excuse.
      have isTurn := excused ⟨before, .draw drawing place⟩ List.mem_cons_self
      have outcome := drawing.render_outcome works (isTurn.isMeasured.sizes drawing rfl) small
      refine .bind (.drawn (outcome.imp_right ?_)) fun _ => .pure _
      rintro ⟨cause, failed, isRoom, tooLarge⟩
      exact ⟨cause, failed, isRoom, isTurn.room drawing rfl tooLarge⟩
  | .define name value place, before, output, excused => .bind (.modify _) fun _ => .pure _
  | .rainbow text x y duration place, before, output, excused => by
      rcases Hue.exists_paint text settings.color with ⟨paint, isPaint⟩
      exact fun stage => .inl ⟨_, _, command_rainbow isPaint lettering x y duration place output stage⟩
  | .wait duration place, before, output, excused => .bind (.record _) fun _ => .pure _
  | .frame body place, before, output, excused => by
      rw [turnsAt, List.forall_mem_append] at excused
      exact .bind (ends_commands works small body [] "" excused.1) fun _ => .bind (.modify _) fun _ => .pure _
  | .animate children duration place, before, output, excused => by
      rw [turnsAt, List.forall_mem_append, List.forall_mem_singleton] at excused
      rcases excused.2.isMeasured.duration duration rfl with ⟨nonneg, bound⟩
      exact .bind (ends_frames works small children excused.1) fun frames =>
        .bind (ends_animate nonneg bound (by omega) frames) fun _ => .pure _

theorem ends_commands (works : settings.HasWorkingFonts lettering) (small : exponent + 1 < 1023) :
    (later before : List Command) → (output : String) →
    (∀ turn ∈ turnsIn before later, turn.IsExcused exponent excuse) →
      Ends excuse (commands settings lettering later output)
  | [], before, output, excused => .pure output
  | first :: later, before, output, excused => by
      rw [turnsIn, List.forall_mem_append] at excused
      exact .bind (ends_command works small first before output excused.1) fun next =>
        ends_commands works small later _ next excused.2

theorem ends_frames (works : settings.HasWorkingFonts lettering) (small : exponent + 1 < 1023) :
    (children : List Command) →
    (∀ turn ∈ turnsInFrames children, turn.IsExcused exponent excuse) →
      Ends excuse (frames settings lettering children)
  | [], excused => .pure []
  | .frame body place :: later, excused => by
      rw [turnsInFrames, List.forall_mem_append] at excused
      exact .bind (ends_commands works small body [] "" excused.1) fun _ =>
        .bind (ends_frames works small later excused.2) fun _ => .pure _
  | .background .. :: later, excused | .draw .. :: later, excused | .define .. :: later, excused
  | .rainbow .. :: later, excused | .wait .. :: later, excused | .animate .. :: later, excused =>
      ends_frames works small later excused

end

end Evaluating

section Times

variable {settings : Settings} {lettering : Lettering} {exponent : ℕ}

def Command.isAnimation : Command → Bool
  | .animate .. => true
  | _ => false

/-- Steps of a turn that take a proper time: no pause among them is negative, and what an animation shows is
held for a millisecond at least. -/
structure Turn.TakesTime (turn : Turn) (part : List Step) : Prop where
  pauses : ∀ duration, .pause duration ∈ part → 0 ≤ duration
  pictures : turn.command.isAnimation = true → ∀ step ∈ part, 1 ≤ step.duration

theorem Turn.takesTime_of_steps {turn : Turn} {background : String} {part : List Step}
    (isMeasured : turn.command.IsMeasured exponent)
    (isSteps : turn.steps settings lettering background = .ok part) : turn.TakesTime part := by
  rcases turn with ⟨before, command⟩
  cases command with
  | wait duration place =>
      rw [← Except.ok.inj isSteps]
      refine ⟨fun other isPause => ?_, by simp [Command.isAnimation]⟩
      rw [List.mem_singleton, Step.pause.injEq] at isPause
      rw [isPause]
      exact (isMeasured.duration duration rfl).1
  | rainbow text x y duration place =>
      simp only [Turn.steps, bind_eq_ok_iff] at isSteps
      rcases isSteps with ⟨content, own, overlays, made, isSteps⟩
      rw [← Except.ok.inj isSteps]
      exact ⟨by simp, by simp [Command.isAnimation]⟩
  | animate children duration place =>
      simp only [Turn.steps, bind_eq_ok_iff] at isSteps
      rcases isSteps with ⟨frames, drawn, pictures⟩
      unfold animationPictures at pictures
      split at pictures
      · simp only [bind_eq_ok_iff, mapError_eq_ok_iff] at pictures
        rcases pictures with ⟨timing, timed, isSteps⟩
        rw [← Except.ok.inj isSteps]
        refine ⟨by simp, fun _ => ?_⟩
        rw [List.forall_mem_map]
        intro index inside
        exact Timing.delay_pos_of_steps timed (by have := List.mem_range.mp inside; omega)
      · rw [← Except.ok.inj pictures]
        exact ⟨by simp, by simp⟩
  | _ =>
      rw [← Except.ok.inj isSteps]
      exact ⟨by simp, by simp⟩

theorem StepsOfTurns.takeTime {background : String} {turns : List Turn} {parts : List (List Step)}
    (areParts : StepsOfTurns settings lettering background turns parts)
    (areMeasured : ∀ turn ∈ turns, turn.command.IsMeasured exponent) :
    List.Forall₂ Turn.TakesTime turns parts := by
  rw [List.forall₂_iff_get]
  refine ⟨areParts.sameLength.symm, fun index isTurn isPart => ?_⟩
  exact Turn.takesTime_of_steps (areMeasured _ (List.getElem_mem isTurn)) (areParts.each index isTurn isPart)

theorem pause_nonneg_of_takeTime {turns : List Turn} {parts : List (List Step)}
    (takeTime : List.Forall₂ Turn.TakesTime turns parts) :
    ∀ duration, .pause duration ∈ parts.flatten → 0 ≤ duration := by
  induction takeTime with
  | nil => simp
  | cons first later ih =>
      intro duration isPause
      rcases List.mem_append.mp isPause with isPause | isPause
      · exact first.pauses duration isPause
      · exact ih duration isPause

end Times

/-- A program draws something without room for its grid. -/
def Program.LacksRoom (program : Program) : Prop :=
  ∃ turn ∈ program.turns, ∃ drawing, turn.command.drawing? = some drawing ∧ ¬drawing.Fits

/-- An evaluation without a fault. There is a scene, unless there is no room for a grid; no line leaves its
grid; and the steps of the scene take a proper time. -/
structure Program.IsSafe (settings : Settings) (lettering : Lettering) (program : Program) : Prop where
  outcome : (∃ scene, (program.evaluate settings lettering).outcome = .ok scene) ∨
    program.LacksRoom ∧ ∃ cause : MaskFailure, cause.IsRoom ∧
      (program.evaluate settings lettering).outcome = .error (.noMask cause)
  lines : ∀ turn ∈ program.turns, ∀ x1 y1 x2 y2 color,
    turn.command.drawing? = some (.line x1 y1 x2 y2 color) →
      ∃ segment, segmentOf x1 y1 x2 y2 = .ok segment ∧ (∀ cell ∈ segment.cells, segment.HasPlace cell) ∧
        segment.cells.getLast? = some (segment.x2, segment.y2)
  pauses : ∀ scene, (program.evaluate settings lettering).outcome = .ok scene →
    ∀ duration, .pause duration ∈ scene.timeline.toList → 0 ≤ duration
  animations : ∀ scene, (program.evaluate settings lettering).outcome = .ok scene →
    ∃ parts, StepsOfTurns settings lettering "black" program.turns parts ∧
      scene.timeline.toList = parts.flatten ∧ List.Forall₂ Turn.TakesTime program.turns parts

section Program

variable {settings : Settings} {lettering : Lettering} {exponent : ℕ}

theorem Program.outcome_of_isMeasured {program : Program} (works : settings.HasWorkingFonts lettering)
    (small : exponent + 1 < 1023)
    (areMeasured : ∀ turn ∈ program.turns, turn.command.IsMeasured exponent) :
    (∃ scene, (program.evaluate settings lettering).outcome = .ok scene) ∨
      program.LacksRoom ∧ ∃ cause : MaskFailure, cause.IsRoom ∧
        (program.evaluate settings lettering).outcome = .error (.noMask cause) := by
  have excused : ∀ turn ∈ program.turns, turn.IsExcused exponent program.LacksRoom := fun turn isTurn =>
    ⟨areMeasured turn isTurn, fun drawing draws tooLarge => ⟨turn, isTurn, drawing, draws, tooLarge⟩⟩
  rcases Evaluating.ends_commands works small program.commands [] "" excused {} with
    ⟨output, after, ran⟩ | ⟨cause, after, failed, isRoom, lacksRoom⟩
  · exact .inl ⟨Stage.scene { after with output }, by simp only [evaluate, EStateM.run, ran]⟩
  · exact .inr ⟨lacksRoom, cause, isRoom, by simp only [evaluate, EStateM.run, failed]⟩

theorem Program.isSafe_of_isMeasured {program : Program} (works : settings.HasWorkingFonts lettering)
    (small : exponent + 1 < 1023)
    (areMeasured : ∀ turn ∈ program.turns, turn.command.IsMeasured exponent) :
    program.IsSafe settings lettering := by
  have animations : ∀ scene, (program.evaluate settings lettering).outcome = .ok scene →
      ∃ parts, StepsOfTurns settings lettering "black" program.turns parts ∧
        scene.timeline.toList = parts.flatten ∧ List.Forall₂ Turn.TakesTime program.turns parts := by
    intro scene evaluated
    rcases runs_of_evaluate evaluated with ⟨output, after, own, runs, rfl⟩
    rcases runs.timeline with ⟨parts, areParts, timeline⟩
    exact ⟨parts, areParts, by simpa [Stage.scene] using timeline, areParts.takeTime areMeasured⟩
  constructor
  case outcome => exact outcome_of_isMeasured works small areMeasured
  case lines =>
    intro turn isTurn x1 y1 x2 y2 color draws
    rcases exists_segmentOf ((areMeasured turn isTurn).sizes _ draws) with ⟨segment, isSegment⟩
    exact ⟨segment, isSegment, segment.cells_arrive⟩
  case pauses =>
    intro scene evaluated duration isPause
    rcases animations scene evaluated with ⟨parts, -, timeline, takeTime⟩
    rw [timeline] at isPause
    exact pause_nonneg_of_takeTime takeTime duration isPause
  case animations => exact animations

end Program

/-- A program that is read from a source whose numerals are no greater than `10 ^ 300` is evaluated without
a fault, whatever the settings. -/
theorem isSafe_of_programOfSource {settings : Settings} {lettering : Lettering} {source : String}
    {filename : Option String} {tokens : List Token} {read : ReadProgram}
    (scanned : tokensOf source filename = .ok tokens) (numerals : NumeralsUpTo (10 ^ 300) tokens)
    (reads : programOfSource source filename = .ok read) (works : settings.HasWorkingFonts lettering) :
    read.program.IsSafe settings lettering := by
  -- Rounding may double a number, and so does the diameter of a disc: both stay below `2 ^ 1023`.
  have bound : (10 : ℚ) ^ 300 ≤ 2 ^ 1000 := by
    calc (10 : ℚ) ^ 300 = (10 ^ 3) ^ 100 := by rw [← pow_mul]
      _ ≤ (2 ^ 10) ^ 100 := by gcongr; norm_num
      _ = 2 ^ 1000 := by rw [← pow_mul]
  simp only [programOfSource, scanned] at reads
  have areMeasured := isMeasured_of_read scanned reads (numerals.mono bound) (by norm_num)
  refine Program.isSafe_of_isMeasured works (show 1001 + 1 < 1023 by norm_num) ?_
  intro turn isTurn
  exact areMeasured turn.command (mem_allIn_of_turnsIn read.program.commands [] turn isTurn)

/-- A line in the frame of an animation, and a pause, with a negative least delay. -/
theorem isSafe_of_programOfSource_line :
    ∃ source tokens read,
      source = "s\x7banimate\x7bframe\x7bline a(9,9)b(9,9)c\"red\";\x7d\x7dfor 9;wait 9;\x7d" ∧
        tokensOf source (some "a") = .ok tokens ∧ NumeralsUpTo (10 ^ 300) tokens ∧
        programOfSource source (some "a") = .ok read ∧ read.program.turns.length = 3 ∧
        read.program.IsSafe { minFrameDelay := -9 } fun _ text => .drawn text := by
  let source := "s\x7banimate\x7bframe\x7bline a(9,9)b(9,9)c\"red\";\x7d\x7dfor 9;wait 9;\x7d"
  let at' (kind : TokenKind) (text : String) (column : Int) : Token :=
    ⟨kind, text, some ⟨1, column, column - 1, some "a"⟩⟩
  let tokens : List Token :=
    [at' .identifier "s" 1, at' .leftBrace "\x7b" 2, at' .identifier "animate" 3,
      at' .leftBrace "\x7b" 10, at' .identifier "frame" 11, at' .leftBrace "\x7b" 16,
      at' .identifier "line" 17, at' .identifier "a" 22, at' .leftParen "(" 23, at' .number "9" 24,
      at' .comma "," 25, at' .number "9" 26, at' .rightParen ")" 27, at' .identifier "b" 28,
      at' .leftParen "(" 29, at' .number "9" 30, at' .comma "," 31, at' .number "9" 32,
      at' .rightParen ")" 33, at' .identifier "c" 34, at' .string "\"red\"" 35,
      at' .semicolon ";" 40, at' .rightBrace "\x7d" 41, at' .rightBrace "\x7d" 42,
      at' .identifier "for" 43, at' .number "9" 47, at' .semicolon ";" 48, at' .identifier "wait" 49,
      at' .number "9" 54, at' .semicolon ";" 55, at' .rightBrace "\x7d" 56]
  have scanned : tokensOf source (some "a") = .ok tokens := by decide +kernel
  have numerals : NumeralsUpTo (10 ^ 300) tokens := by
    have nines : ∀ token ∈ tokens, token.kind = .number → token.text = "9" := by decide +kernel
    intro token inside isNumber
    calc decimalValue token.text.toList = 9 := by rw [nines token inside isNumber]; decide +kernel
      _ ≤ 10 := by norm_num
      _ ≤ 10 ^ 300 := le_self_pow₀ (by norm_num) (by norm_num)
  have isPoint (column : Int) : DerivesPoint [at' .leftParen "(" column, at' .number "9" (column + 1),
      at' .comma "," (column + 2), at' .number "9" (column + 3), at' .rightParen ")" (column + 4)] _ _ :=
    .point rfl (Token.hasNumber_nine rfl rfl) rfl (Token.hasNumber_nine rfl rfl) rfl
  have isLine : DerivesCommand (at' .identifier "line" 17 :: at' .identifier "a" 22 :: _ ++
      at' .identifier "b" 28 :: _ ++ [at' .identifier "c" 34, at' .string "\"red\"" 35,
        at' .semicolon ";" 40]) _ :=
    .plain (.line ⟨rfl, rfl⟩ rfl (isPoint 23) rfl (isPoint 29) rfl rfl rfl)
  have isFrame : DerivesCommand (at' .identifier "frame" 11 :: at' .leftBrace "\x7b" 16 :: _ ++
      [at' .rightBrace "\x7d" 41]) _ :=
    .frame ⟨rfl, rfl⟩ rfl (.some isLine .none) rfl
  have isAnimation : DerivesCommand (at' .identifier "animate" 3 :: at' .leftBrace "\x7b" 10 :: _ ++
      [at' .rightBrace "\x7d" 42, at' .identifier "for" 43, at' .number "9" 47,
        at' .semicolon ";" 48]) _ :=
    .animate ⟨rfl, rfl⟩ rfl (.some isFrame .none) rfl rfl (Token.hasCount_nine rfl rfl) rfl
  have isWait : DerivesCommand
      [at' .identifier "wait" 49, at' .number "9" 54, at' .semicolon ";" 55] (.wait 9 _) :=
    .plain (.wait ⟨rfl, rfl⟩ (Token.hasCount_nine rfl rfl) rfl)
  have derives : DerivesProgram (at' .identifier "s" 1 :: at' .leftBrace "\x7b" 2 :: _ ++
      [at' .rightBrace "\x7d" 56]) _ :=
    .program rfl rfl (.some isAnimation (.some isWait .none)) rfl
  rcases Parser.programOfTokens_of_derives source "a" derives (List.prefix_refl _) with
    ⟨read, reads, same⟩
  have isRead : programOfSource source (some "a") = .ok read := by
    simp only [programOfSource, scanned]
    exact reads
  exact ⟨source, tokens, read, rfl, scanned, numerals, isRead, by rw [same]; rfl,
    isSafe_of_programOfSource scanned numerals isRead fun _ _ _ _ => by simp⟩

end TermScene
