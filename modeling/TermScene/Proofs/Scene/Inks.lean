import TermScene.Proofs.Color.Inks
import TermScene.Proofs.Scene.Timeline
import TermScene.Proofs.Scene.Uncolored

/-!
# No colour runs

A terminal that reads the output of a scene, one of its frames or what a step of its timeline shows, over
any background, displays the inks of the drawings that it is made of and nothing else. The background is
behind every character but the newlines, at which no colour is on, and no colour is on in the end.
-/

namespace TermScene

section Own

variable {settings : Settings} {lettering : Lettering}

/-- The inks of the drawings that stand directly in a block, in a row. -/
def ownInks (settings : Settings) (lettering : Lettering) (block : List Command) :
    Except DrawFailure (List Ink) :=
  ((block.filterMap Command.drawing?).mapM fun (drawing : Drawing) =>
    drawing.inks settings lettering).map List.flatten

/-- Where the results that some items give go with others that the items give, there is a list of these. -/
theorem exists_forall₂ {α β γ : Type} {gives : α → β → Prop} {also : α → γ → Prop}
    {goesWith : β → γ → Prop} {items : List α} {results : List β}
    (each : List.Forall₂ gives items results)
    (next : ∀ item ∈ items, ∀ result, gives item result →
      ∃ other, also item other ∧ goesWith result other) :
    ∃ others, List.Forall₂ also items others ∧ List.Forall₂ goesWith results others := by
  induction each with
  | nil => exact ⟨[], .nil, .nil⟩
  | cons first _ ih =>
      rcases List.forall_mem_cons.mp next with ⟨nextFirst, nextLater⟩
      rcases nextFirst _ first with ⟨other, isAlso, goes⟩
      rcases ih nextLater with ⟨others, areAlso, go⟩
      exact ⟨other :: others, .cons isAlso areAlso, .cons goes go⟩

theorem ArePlain.of_mem {block : List Command} (isPlain : ArePlain (textsIn block)) :
    ∀ command ∈ block, ArePlain command.texts := by
  induction block with
  | nil => simp
  | cons first later ih =>
      rcases arePlain_append.mp isPlain with ⟨firstPlain, laterPlain⟩
      exact List.forall_mem_cons.mpr ⟨firstPlain, ih laterPlain⟩

theorem ArePlain.of_drawing {block : List Command} (isPlain : ArePlain (textsIn block)) :
    ∀ drawing ∈ block.filterMap Command.drawing?, ∀ text ∈ drawing.text?, '\x1b' ∉ text.toList := by
  intro drawing inside text isText
  rcases List.mem_filterMap.mp inside with ⟨command, inBlock, draws⟩
  cases command <;> simp only [Command.drawing?, Option.some.injEq, reduceCtorEq] at draws
  subst draws
  exact isPlain.of_mem _ inBlock text (Option.mem_toList.mpr isText)

theorem ArePlain.of_frameBody? {command : Command} (isPlain : ArePlain command.texts)
    {body : List Command} (isFrame : command.frameBody? = some body) : ArePlain (textsIn body) := by
  cases command <;> simp only [Command.frameBody?, Option.some.injEq, reduceCtorEq] at isFrame
  exact isFrame ▸ isPlain

theorem ArePlain.of_body {block : List Command} (isPlain : ArePlain (textsIn block)) :
    ∀ body ∈ block.filterMap Command.frameBody?, ArePlain (textsIn body) := by
  intro body inside
  rcases List.mem_filterMap.mp inside with ⟨command, inBlock, isFrame⟩
  exact (isPlain.of_mem command inBlock).of_frameBody? isFrame

variable (isOn : settings.color = true) (plainFonts : settings.HasPlainFonts lettering)
include isOn plainFonts

theorem inked_of_ownOutput {block : List Command} {output : String}
    (isPlain : ArePlain (textsIn block)) (own : ownOutput settings lettering block = .ok output) :
    ∃ inks, ownInks settings lettering block = .ok inks ∧ Inked output.toList inks := by
  simp only [ownOutput, map_eq_ok_iff, mapM_eq_ok_iff] at own
  rcases own with ⟨texts, drawn, rfl⟩
  have each : ∀ drawing ∈ block.filterMap Command.drawing?, ∀ text : String,
      (∃ made, drawing.render settings lettering = .ok made ∧ made.1 = text) →
        ∃ inks, drawing.inks settings lettering = .ok inks ∧ Inked text.toList inks := by
    rintro drawing inside text ⟨⟨_, notices⟩, rendered, rfl⟩
    exact Drawing.inked_of_render isOn (isPlain.of_drawing drawing inside) plainFonts rendered
  rcases exists_forall₂ drawn each with ⟨inks, areInks, inked⟩
  refine ⟨inks.flatten, ?_, ?_⟩
  · simp only [ownInks, map_eq_ok_iff, mapM_eq_ok_iff]
    exact ⟨inks, areInks, rfl⟩
  · rw [String.toList_join, List.flatMap_def]
    exact .flatten (List.forall₂_map_left_iff.mpr inked)

theorem inked_of_ownOutputs {bodies : List (List Command)} {outputs : List String}
    (arePlain : ∀ body ∈ bodies, ArePlain (textsIn body))
    (own : bodies.mapM (ownOutput settings lettering) = .ok outputs) :
    ∃ each, bodies.mapM (ownInks settings lettering) = .ok each ∧
      List.Forall₂ (fun output inks => Inked output.toList inks) outputs each := by
  simp only [mapM_eq_ok_iff] at own ⊢
  exact exists_forall₂ own fun body inside output isOutput =>
    inked_of_ownOutput isOn plainFonts (arePlain body inside) isOutput

end Own

section Turns

theorem textsIn_append (first later : List Command) :
    textsIn (first ++ later) = textsIn first ++ textsIn later := by
  induction first with
  | nil => rfl
  | cons command others ih => simp [textsIn, ih]

structure Turn.IsPlain (turn : Turn) : Prop where
  before : ArePlain (textsIn turn.before)
  command : ArePlain turn.command.texts

mutual

theorem isPlain_turnsAt : (subject : Command) → (before : List Command) →
    ArePlain (textsIn before) → ArePlain subject.texts → ∀ turn ∈ turnsAt before subject, turn.IsPlain
  | .frame body place, before, beforePlain, isPlain => by
      rw [turnsAt, List.forall_mem_append, List.forall_mem_singleton]
      exact ⟨isPlain_turnsIn body [] (by simp [textsIn, ArePlain]) isPlain, beforePlain, isPlain⟩
  | .animate children duration place, before, beforePlain, isPlain => by
      rw [turnsAt, List.forall_mem_append, List.forall_mem_singleton]
      exact ⟨isPlain_turnsInFrames children isPlain, beforePlain, isPlain⟩
  | .background .., before, beforePlain, isPlain | .draw .., before, beforePlain, isPlain
  | .define .., before, beforePlain, isPlain | .rainbow .., before, beforePlain, isPlain
  | .wait .., before, beforePlain, isPlain =>
      List.forall_mem_singleton.mpr ⟨beforePlain, isPlain⟩

theorem isPlain_turnsIn : (later before : List Command) →
    ArePlain (textsIn before) → ArePlain (textsIn later) → ∀ turn ∈ turnsIn before later, turn.IsPlain
  | [], before, beforePlain, isPlain => by simp [turnsIn]
  | first :: later, before, beforePlain, isPlain => by
      rcases arePlain_append.mp isPlain with ⟨firstPlain, laterPlain⟩
      rw [turnsIn, List.forall_mem_append]
      refine ⟨isPlain_turnsAt first before beforePlain firstPlain,
        isPlain_turnsIn later _ ?_ laterPlain⟩
      rw [textsIn_append, arePlain_append]
      exact ⟨beforePlain, by simpa [textsIn] using firstPlain⟩

theorem isPlain_turnsInFrames : (children : List Command) →
    ArePlain (textsIn children) → ∀ turn ∈ turnsInFrames children, turn.IsPlain
  | [], isPlain => by simp [turnsInFrames]
  | .frame body place :: later, isPlain => by
      rcases arePlain_append.mp isPlain with ⟨bodyPlain, laterPlain⟩
      rw [turnsInFrames, List.forall_mem_append]
      exact ⟨isPlain_turnsIn body [] (by simp [textsIn, ArePlain]) bodyPlain,
        isPlain_turnsInFrames later laterPlain⟩
  | .background .. :: later, isPlain | .draw .. :: later, isPlain | .define .. :: later, isPlain
  | .rainbow .. :: later, isPlain | .wait .. :: later, isPlain | .animate .. :: later, isPlain =>
      isPlain_turnsInFrames later (arePlain_append.mp isPlain).2

end

end Turns

/-- A step that shows inks: its content and its overlay over whatever background it has. -/
def Step.ShowsInks (settings : Settings) (step : Step) (inks : List Ink) : Prop :=
  match step with
  | .picture content _ _ overlay => TermScene.ShowsInks settings (content ++ overlay) inks
  | _ => False

/-- The steps that a turn adds are displayed in inks. Those of rainbow text show the drawings before it in
its block and then the rainbow, and those of an animation its frames in turn. -/
def Turn.StepsInked (settings : Settings) (lettering : Lettering) (turn : Turn) (steps : List Step) :
    Prop :=
  match turn.command with
  | .wait duration _ => steps = [.pause duration]
  | .rainbow text _ _ _ _ =>
      ∃ own, ownInks settings lettering turn.before = .ok own ∧
        ∀ step ∈ steps, ∃ rainbow, IsRainbow text.toList rainbow ∧
          step.ShowsInks settings (own ++ rainbow)
  | .animate children _ _ =>
      ∃ each, (children.filterMap Command.frameBody?).mapM (ownInks settings lettering) = .ok each ∧
        ∀ (index : ℕ) (step : Step), steps[index]? = some step →
          ∃ inks, each[index % each.length]? = some inks ∧ step.ShowsInks settings inks
  | _ => steps = []

/-- A scene that a program is displayed as, in inks: its output in those of the drawings that stand
directly in the program, each frame in those of the frame's own drawings, and the timeline turn by
turn. -/
structure Scene.IsInked (settings : Settings) (lettering : Lettering) (program : Program)
    (scene : Scene) : Prop where
  output : ∃ inks, ownInks settings lettering program.commands = .ok inks ∧
    ShowsInks settings scene.output inks
  frames : ∃ each, (program.turns.filterMap fun turn => turn.command.frameBody?).mapM
      (ownInks settings lettering) = .ok each ∧
    List.Forall₂ (ShowsInks settings) scene.frames.toList each
  timeline : ∃ parts, scene.timeline.toList = parts.flatten ∧
    List.Forall₂ (Turn.StepsInked settings lettering) program.turns parts

section Inked

variable {settings : Settings} {lettering : Lettering} (isOn : settings.color = true)
  (plainFonts : settings.HasPlainFonts lettering)
include isOn

theorem showsInks_of_animationPictures {background : String} {frames : List String} {duration : Int}
    {steps : List Step} {each : List (List Ink)}
    (inked : List.Forall₂ (fun frame inks => Inked frame.toList inks) frames each)
    (pictures : animationPictures settings background frames duration = .ok steps) {index : ℕ}
    {step : Step} (isStep : steps[index]? = some step) :
    ∃ inks, each[index % each.length]? = some inks ∧ step.ShowsInks settings inks := by
  unfold animationPictures at pictures
  split at pictures
  · rename_i isPlayed
    rcases bind_eq_ok_iff.mp pictures with ⟨timing, -, made⟩
    cases made
    simp only [List.getElem?_map, Option.map_eq_some_iff] at isStep
    rcases isStep with ⟨number, isNumber, rfl⟩
    rw [List.getElem?_eq_some_iff] at isNumber
    rcases isNumber with ⟨inside, isIndex⟩
    rw [List.getElem_range] at isIndex
    subst isIndex
    have inFrames := Nat.mod_lt index (List.length_pos_iff.mpr isPlayed)
    have inEach : index % frames.length < each.length := inked.length_eq ▸ inFrames
    refine ⟨each[index % frames.length], ?_, ?_⟩
    · rw [← inked.length_eq, List.getElem?_eq_getElem inEach]
    · rw [Step.ShowsInks, String.append_empty]
      exact (inked.get inFrames inEach).showsInks isOn
  · cases pictures
    simp at isStep

include plainFonts

theorem Turn.stepsInked {turn : Turn} (isPlain : turn.IsPlain) {background : String}
    {steps : List Step} (made : turn.steps settings lettering background = .ok steps) :
    turn.StepsInked settings lettering steps := by
  rcases turn with ⟨before, command⟩
  cases command with
  | rainbow text x y duration place =>
      have textPlain : '\x1b' ∉ text.toList := isPlain.command text (by simp [Command.texts])
      simp only [Turn.steps, bind_eq_ok_iff] at made
      rcases made with ⟨content, own, overlays, drawn, made⟩
      cases made
      simp only [plainOverlays, isOn, mapM_eq_ok_iff, mapError_eq_ok_iff] at drawn
      rcases inked_of_ownOutput isOn plainFonts isPlain.before own with ⟨inks, areInks, inked⟩
      have each : ∀ overlay ∈ overlays, ∃ rainbow, IsRainbow text.toList rainbow ∧
          Inked overlay.toList rainbow :=
        ((List.forall₂_and_left _ _).mp (drawn.flip.imp fun overlay offset isDrawn =>
          ⟨Hue.inked_of_rainbow textPlain isDrawn, isDrawn⟩)).1
      refine ⟨inks, areInks, ?_⟩
      intro step inside
      rcases List.mem_map.mp inside with ⟨overlay, isOverlay, rfl⟩
      rcases each overlay isOverlay with ⟨rainbow, isRainbow, inkedOverlay⟩
      refine ⟨rainbow, isRainbow, Inked.showsInks isOn ?_⟩
      rw [String.toList_append]
      exact inked.append inkedOverlay
  | animate children duration place =>
      simp only [Turn.steps, bind_eq_ok_iff] at made
      rcases made with ⟨outputs, own, pictures⟩
      rcases inked_of_ownOutputs isOn plainFonts isPlain.command.of_body own with ⟨each, areEach, inked⟩
      exact ⟨each, areEach, fun index step isStep =>
        showsInks_of_animationPictures isOn inked pictures isStep⟩
  | wait duration place => exact (Except.ok.inj made).symm
  | background color place => exact (Except.ok.inj made).symm
  | draw drawing place => exact (Except.ok.inj made).symm
  | define name value place => exact (Except.ok.inj made).symm
  | frame body place => exact (Except.ok.inj made).symm

/-- What a program is evaluated to in colour is displayed in the inks of its drawings. -/
theorem Program.evaluate_isInked {program : Program} {scene : Scene}
    (isPlain : ArePlain (textsIn program.commands))
    (evaluated : (program.evaluate settings lettering).outcome = .ok scene) :
    scene.IsInked settings lettering program := by
  have turnsPlain : ∀ turn ∈ program.turns, turn.IsPlain :=
    isPlain_turnsIn program.commands [] (by simp [textsIn, ArePlain]) isPlain
  rcases Program.runs_of_evaluate evaluated with ⟨output, after, own, runs, rfl⟩
  constructor
  case output =>
    rcases inked_of_ownOutput isOn plainFonts isPlain own with ⟨inks, areInks, inked⟩
    exact ⟨inks, areInks, inked.showsInks isOn⟩
  case frames =>
    rcases runs.frames with ⟨texts, registered, ownFrames⟩
    have bodiesPlain : ∀ body ∈ program.turns.filterMap fun turn => turn.command.frameBody?,
        ArePlain (textsIn body) := by
      intro body inside
      rcases List.mem_filterMap.mp inside with ⟨turn, inTurns, isFrame⟩
      exact (turnsPlain turn inTurns).command.of_frameBody? isFrame
    rcases inked_of_ownOutputs isOn plainFonts bodiesPlain ownFrames with ⟨each, areEach, inked⟩
    refine ⟨each, areEach, ?_⟩
    have areFrames : after.frames.toList = texts := by simpa using registered
    simp only [Stage.scene, areFrames]
    exact inked.imp fun frame inks isInked => isInked.showsInks isOn
  case timeline =>
    rcases runs.timeline with ⟨parts, stepsOfTurns, added⟩
    refine ⟨parts, by simpa [Stage.scene] using added, ?_⟩
    rw [List.forall₂_iff_get]
    refine ⟨stepsOfTurns.sameLength.symm, ?_⟩
    intro index isTurn isPart
    exact Turn.stepsInked isOn plainFonts (turnsPlain _ (List.getElem_mem isTurn))
      (stepsOfTurns.each index isTurn isPart)

end Inked

/-- A disc in the middle of clear cells in a frame, and rainbow text after a text of two lines. -/
theorem Program.evaluate_isInked_frame :
    ∃ (settings : Settings) (lettering : Lettering) (program : Program) (scene : Scene),
      settings.color = true ∧ settings.HasPlainFonts lettering ∧
        ArePlain (textsIn program.commands) ∧
        (program.evaluate settings lettering).outcome = .ok scene ∧
        scene.frames = #["   \n \x1b[38;2;255;0;0m●\x1b[39m \n   \n"] ∧
        scene.timeline = #[.picture "\x1b[38;2;0;0;255mA\x1b[39m\n\x1b[38;2;0;0;255mB\x1b[39m" "black"
          10 "\x1b[38;2;255;0;0mr\x1b[39m"] ∧
        scene.IsInked settings lettering program := by
  let zero := Binary64.ofInt 0
  let lettering : Lettering := fun _ text => .drawn text
  let program : Program :=
    ⟨[.frame [.draw (.circle zero zero (Binary64.ofInt 1) "red") none] none,
      .draw (.text "A\nB" zero zero 12 "blue") none, .rainbow "r" zero zero 1 none], none⟩
  let shown := "\x1b[38;2;0;0;255mA\x1b[39m\n\x1b[38;2;0;0;255mB\x1b[39m"
  let scene : Scene :=
    { timeline := #[.picture shown "black" 10 "\x1b[38;2;255;0;0mr\x1b[39m"]
      frames := #["   \n \x1b[38;2;255;0;0m●\x1b[39m \n   \n"]
      output := shown }
  have evaluated : (program.evaluate {} lettering).outcome = .ok scene := by decide +kernel
  have isPlain : ArePlain ["A\nB", "r"] := by
    rw [ArePlain]
    decide
  have plainFont (font : String) : lettering.IsPlain font := by
    intro text lines isPlain drawn
    cases drawn
    exact isPlain
  have plainFonts : Settings.HasPlainFonts {} lettering := ⟨plainFont _, plainFont _⟩
  exact ⟨{}, lettering, program, scene, rfl, plainFonts, isPlain, evaluated, rfl, rfl,
    Program.evaluate_isInked rfl plainFonts isPlain evaluated⟩

end TermScene
