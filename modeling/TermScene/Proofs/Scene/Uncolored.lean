import TermScene.Proofs.Color.Uncolored
import TermScene.Proofs.Scene.Run

/-!
# An evaluation in colour and in plain text

A program is evaluated twice, with colours on and with colours off. The two evaluations go through the
same stages, but for the colour codes in what is drawn, and they fail together.

They are compared part by part: a relation between parts of an evaluation that keeps the stages alike
passes from the parts to what is made up of them.
-/

namespace TermScene

open Terminal

mutual

/-- The strings of the text and rainbow commands of a command, at any depth. -/
def Command.texts : Command → List String
  | .draw drawing _ => drawing.text?.toList
  | .rainbow text _ _ _ _ => [text]
  | .frame body _ => textsIn body
  | .animate children _ _ => textsIn children
  | _ => []

def textsIn : List Command → List String
  | [] => []
  | first :: later => first.texts ++ textsIn later

end

def ArePlain (texts : List String) : Prop := ∀ text ∈ texts, '\x1b' ∉ text.toList

theorem arePlain_append {first later : List String} :
    ArePlain (first ++ later) ↔ ArePlain first ∧ ArePlain later :=
  List.forall_mem_append

/-- A step that reads as another without its codes, whatever is shown after its content. -/
inductive Step.ReadsAs : Step → Step → Prop where
  | picture {content overlay plainContent plainOverlay : String} (background : String) (hold : Int)
      (contents : Terminal.ReadsAs content plainContent)
      (overlays : Terminal.ReadsAs overlay plainOverlay) :
      Step.ReadsAs (.picture content background hold overlay)
        (.picture plainContent background hold plainOverlay)
  | pause (duration : Int) : Step.ReadsAs (.pause duration) (.pause duration)

/-- Two stages that differ by colour codes alone. -/
structure Stage.ReadsAs (stage plain : Stage) : Prop where
  background : stage.background = plain.background
  bindings : stage.bindings = plain.bindings
  notices : stage.notices = plain.notices
  output : Terminal.ReadsAs stage.output plain.output
  frames : List.Forall₂ Terminal.ReadsAs stage.frames.toList plain.frames.toList
  timeline : List.Forall₂ Step.ReadsAs stage.timeline.toList plain.timeline.toList

theorem Stage.ReadsAs.start : Stage.ReadsAs {} {} :=
  ⟨rfl, rfl, rfl, .empty, .nil, .nil⟩

namespace Evaluating

variable {α β : Type}

/-- Two ends of an evaluation at stages that are alike: the same failure or related values. -/
inductive EndsAlike (related : α → α → Prop) :
    EStateM.Result DrawFailure Stage α → EStateM.Result DrawFailure Stage α → Prop where
  | ok {value other : α} {stage plain : Stage} (values : related value other)
      (stages : stage.ReadsAs plain) : EndsAlike related (.ok value stage) (.ok other plain)
  | error {stage plain : Stage} (failure : DrawFailure) (stages : stage.ReadsAs plain) :
      EndsAlike related (.error failure stage) (.error failure plain)

/-- Two parts of an evaluation that end alike wherever they start alike. -/
def RunsAlike (related : α → α → Prop) (colored plain : Evaluating α) : Prop :=
  ∀ stage other, stage.ReadsAs other → EndsAlike related (colored stage) (plain other)

namespace RunsAlike

variable {related : α → α → Prop}

theorem pure {value other : α} (values : related value other) :
    RunsAlike related (pure value) (pure other) :=
  fun _ _ stages => .ok values stages

theorem throw (failure : DrawFailure) : RunsAlike related (throw failure) (throw failure) :=
  fun _ _ stages => .error failure stages

theorem get : RunsAlike Stage.ReadsAs get get := fun _ _ stages => .ok stages stages

theorem modify {change plainChange : Stage → Stage}
    (changes : ∀ stage plain, stage.ReadsAs plain → (change stage).ReadsAs (plainChange plain)) :
    RunsAlike Eq (modify change) (modify plainChange) :=
  fun stage other stages => .ok rfl (changes stage other stages)

theorem bind {laterRelated : β → β → Prop} {colored plain : Evaluating α}
    {next plainNext : α → Evaluating β} (first : RunsAlike related colored plain)
    (later : ∀ value other, related value other →
      RunsAlike laterRelated (next value) (plainNext other)) :
    RunsAlike laterRelated (colored >>= next) (plain >>= plainNext) := by
  intro stage other stages
  have ends := first stage other stages
  change EndsAlike laterRelated (EStateM.bind colored next stage) (EStateM.bind plain plainNext other)
  unfold EStateM.bind
  cases coloredEnd : colored stage <;> cases plainEnd : plain other <;>
    rw [coloredEnd, plainEnd] at ends <;> cases ends
  case ok.ok.ok values between => exact later _ _ values _ _ between
  case error.error.error between => exact .error _ between

theorem drawn {colored plain : Except DrawFailure (String × List Notice)}
    (same : SameDrawing colored plain) :
    RunsAlike Terminal.ReadsAs (drawn colored) (drawn plain) := by
  cases same with
  | error failure => exact .throw failure
  | @ok value other values =>
      rcases value with ⟨text, notices⟩
      rcases other with ⟨plainText, plainNotices⟩
      rcases values with ⟨reads, rfl⟩
      refine .bind (.modify ?_) fun _ _ _ => .pure reads
      exact fun stage plain stages => { stages with notices := by simp [stages.notices] }

theorem record {steps plainSteps : List Step} (each : List.Forall₂ Step.ReadsAs steps plainSteps) :
    RunsAlike Eq (record steps) (record plainSteps) := by
  refine .modify fun stage plain stages => { stages with timeline := ?_ }
  simpa using List.rel_append stages.timeline each

end RunsAlike

section Steps

variable {settings : Settings}

theorem getD_readsAs {texts plains : List String} (each : List.Forall₂ Terminal.ReadsAs texts plains)
    (index : ℕ) : Terminal.ReadsAs (texts[index]?.getD "") (plains[index]?.getD "") := by
  induction each generalizing index with
  | nil => exact .empty
  | cons first _ ih =>
      rcases index with _ | index
      · exact first
      · simpa using ih index

/-- Rainbow text without colours is the text itself, at every offset. -/
theorem rainbow_runsAlike {text : String} (isPlain : '\x1b' ∉ text.toList) (lettering : Lettering)
    (x y : Binary64) (duration : Int) (place : Option Location) {output plainOutput : String}
    (outputs : Terminal.ReadsAs output plainOutput) :
    RunsAlike Terminal.ReadsAs
      (command { settings with color := true } lettering (.rainbow text x y duration place) output)
      (command { settings with color := false } lettering (.rainbow text x y duration place)
        plainOutput) := by
  rcases Hue.exists_paint text true with ⟨paint, isPaint⟩
  rcases Hue.exists_paint text false with ⟨plainPaint, isPlainPaint⟩
  have reads (offset : ℤ) : Terminal.ReadsAs (paint offset) (plainPaint offset) := by
    rw [isPlainPaint.eq_text]
    exact isPaint.reads isPlain offset
  intro stage plain stages
  rw [command_rainbow isPaint, command_rainbow isPlainPaint]
  refine .ok outputs { stages with timeline := ?_ }
  simp only [Stage.withOverlays, overlaysFor, stages.background, List.map_map, Array.toList_appendList]
  refine List.rel_append stages.timeline (forall₂_map_map fun offset _ => ?_)
  exact .picture plain.background settings.rainbowStep outputs (reads offset)

theorem animate_runsAlike {frames plainFrames : List String}
    (each : List.Forall₂ Terminal.ReadsAs frames plainFrames) (duration : Int) :
    RunsAlike Eq (animate { settings with color := true } frames duration)
      (animate { settings with color := false } plainFrames duration) := by
  have sameLength := each.length_eq
  have sameEmpty : frames.isEmpty = plainFrames.isEmpty := by cases each <;> rfl
  unfold animate
  rw [sameEmpty, sameLength]
  split
  · exact .modify fun stage plain stages => { stages with notices := by simp [stages.notices] }
  · dsimp only
    split
    · exact .throw _
    · refine .bind .get fun stage plain stages => .record ?_
      rw [stages.background, animationSteps, animationSteps, sameLength]
      exact forall₂_map_map fun step _ => .picture _ _ (getD_readsAs each _) .empty

end Steps

section Commands

variable {settings : Settings} {lettering : Lettering}

mutual

/-- A command after outputs that are alike, evaluated in colour and in plain text. -/
theorem command_runsAlike (plainFonts : settings.HasPlainFonts lettering) :
    (subject : Command) → ArePlain subject.texts →
    {output plain : String} → Terminal.ReadsAs output plain →
      RunsAlike Terminal.ReadsAs (command { settings with color := true } lettering subject output)
        (command { settings with color := false } lettering subject plain)
  | .background color place, _, output, plain, outputs => by
      refine .bind (.modify ?_) fun _ _ _ => .pure outputs
      exact fun stage plain stages => { stages with background := rfl }
  | .draw drawing place, isPlain, output, plain, outputs => by
      have drawingPlain : ∀ text ∈ drawing.text?, '\x1b' ∉ text.toList := by
        intro text isText
        exact isPlain text (Option.mem_toList.mpr isText)
      exact .bind (.drawn (drawing.render_sameDrawing drawingPlain plainFonts)) fun _ _ texts =>
        .pure (outputs.append texts)
  | .define name value place, _, output, plain, outputs => by
      refine .bind (.modify ?_) fun _ _ _ => .pure outputs
      exact fun stage plain stages => { stages with bindings := by simp [stages.bindings] }
  | .rainbow text x y duration place, isPlain, output, plain, outputs => by
      exact rainbow_runsAlike (isPlain text (by simp [Command.texts])) lettering x y duration place outputs
  | .wait duration place, _, output, plain, outputs =>
      .bind (.record (.cons (.pause duration) .nil)) fun _ _ _ => .pure outputs
  | .frame body place, isPlain, output, plain, outputs => by
      refine .bind (commands_runsAlike plainFonts body isPlain .empty) fun frame plainFrame frames =>
        .bind (.modify ?_) fun _ _ _ => .pure outputs
      intro stage plain stages
      exact { stages with frames := by simpa using List.rel_append stages.frames (.cons frames .nil) }
  | .animate children duration place, isPlain, output, plain, outputs =>
      .bind (frames_runsAlike plainFonts children isPlain) fun _ _ each =>
        .bind (animate_runsAlike each duration) fun _ _ _ => .pure outputs

theorem commands_runsAlike (plainFonts : settings.HasPlainFonts lettering) :
    (block : List Command) → ArePlain (textsIn block) →
    {output plain : String} → Terminal.ReadsAs output plain →
      RunsAlike Terminal.ReadsAs (commands { settings with color := true } lettering block output)
        (commands { settings with color := false } lettering block plain)
  | [], _, output, plain, outputs => .pure outputs
  | first :: later, isPlain, output, plain, outputs => by
      rcases arePlain_append.mp isPlain with ⟨firstPlain, laterPlain⟩
      exact .bind (command_runsAlike plainFonts first firstPlain outputs) fun _ _ next =>
        commands_runsAlike plainFonts later laterPlain next

theorem frames_runsAlike (plainFonts : settings.HasPlainFonts lettering) :
    (children : List Command) → ArePlain (textsIn children) →
    RunsAlike (List.Forall₂ Terminal.ReadsAs)
      (frames { settings with color := true } lettering children)
      (frames { settings with color := false } lettering children)
  | [], _ => .pure .nil
  | .frame body place :: later, isPlain => by
      rcases arePlain_append.mp isPlain with ⟨bodyPlain, laterPlain⟩
      exact .bind (commands_runsAlike plainFonts body bodyPlain .empty) fun _ _ frame =>
        .bind (frames_runsAlike plainFonts later laterPlain) fun _ _ others => .pure (.cons frame others)
  | .background .. :: later, isPlain | .draw .. :: later, isPlain | .define .. :: later, isPlain
  | .rainbow .. :: later, isPlain | .wait .. :: later, isPlain | .animate .. :: later, isPlain =>
      frames_runsAlike plainFonts later (arePlain_append.mp isPlain).2

end

end Commands

end Evaluating

end TermScene
