import TermScene.Proofs.Scene.Played
import TermScene.Proofs.Scene.Run

/-!
# What a scene holds

The output of a scene and the text of each of its frames are the drawings of one block, whatever else
stands in it. The frames, the background and the variables come from the turns of the program wherever
in it they are taken.
-/

namespace TermScene

namespace Variables

variable {bindings : Variables}

theorem map_fst_define (name : String) (value : Binary64) :
    (bindings.define name value).map Prod.fst =
      if name ∈ bindings.map Prod.fst then bindings.map Prod.fst
      else bindings.map Prod.fst ++ [name] := by
  induction bindings with
  | nil => simp [define]
  | cons entry later ih =>
      rcases entry with ⟨other, old⟩
      by_cases same : other = name
      · simp [define, same]
      · simp only [define, same, if_false, List.map_cons, ih, List.mem_cons, Ne.symm same, false_or]
        split <;> simp

theorem nodup_define (distinct : (bindings.map Prod.fst).Nodup) (name : String) (value : Binary64) :
    ((bindings.define name value).map Prod.fst).Nodup := by
  rw [map_fst_define]
  split
  · exact distinct
  · rename_i fresh
    refine List.nodup_append.mpr ⟨distinct, by simp, ?_⟩
    intro bound isBound other isOther
    rw [List.mem_singleton.mp isOther]
    exact ne_of_mem_of_not_mem isBound fresh

/-- Variables after definitions in a row. -/
def defineAll (bindings : Variables) (definitions : List (String × Binary64)) : Variables :=
  definitions.foldl (fun later definition => later.define definition.1 definition.2) bindings

theorem nodup_defineAll (distinct : (bindings.map Prod.fst).Nodup)
    (definitions : List (String × Binary64)) :
    ((bindings.defineAll definitions).map Prod.fst).Nodup := by
  induction definitions generalizing bindings with
  | nil => exact distinct
  | cons definition later ih => exact ih (nodup_define distinct ..)

/-- A variable has the value of its last definition, or the one it had if there is none. -/
theorem lookup_defineAll (definitions : List (String × Binary64)) (name : String) :
    (bindings.defineAll definitions).lookup name =
      (definitions.reverse.lookup name).or (bindings.lookup name) := by
  induction definitions generalizing bindings with
  | nil => rfl
  | cons definition later ih =>
      rcases definition with ⟨defined, value⟩
      have first : bindings.defineAll ((defined, value) :: later) =
          (bindings.define defined value).defineAll later := rfl
      rw [first, ih, List.reverse_cons, List.lookup_append, Option.or_assoc]
      by_cases same : name = defined
      · subst same
        simp [lookup_define]
      · have other : (name == defined) = false := by simpa using same
        simp [lookup_define_of_ne bindings value same, List.lookup_cons, other]

end Variables

theorem backgroundAfter_cons (background : String) (turn : Turn) (later : List Turn) :
    backgroundAfter background (turn :: later) =
      backgroundAfter (turn.command.setColor?.getD background) later := by
  cases sets : turn.command.setColor? <;>
    simp [backgroundAfter, sets, List.getLast?_cons]

namespace Runs

variable {settings : Settings} {lettering : Lettering} {turns : List Turn} {stage after : Stage}

theorem background (runs : Runs settings lettering turns stage after) :
    after.background = backgroundAfter stage.background turns := by
  induction runs with
  | none => rfl
  | some acts more ih => rw [ih, acts.background, backgroundAfter_cons]

theorem bindings (runs : Runs settings lettering turns stage after) :
    after.bindings =
      stage.bindings.defineAll (turns.filterMap fun turn => turn.command.definition?) := by
  induction runs with
  | none => rfl
  | @some turn later stage next after acts more ih =>
      rw [ih, acts.bindings]
      cases defines : turn.command.definition? <;>
        simp [Variables.defineAll, defines]

/-- The frames that are registered are the outputs of the frames among the turns. -/
theorem frames (runs : Runs settings lettering turns stage after) :
    ∃ texts, after.frames.toList = stage.frames.toList ++ texts ∧
      (turns.filterMap fun turn => turn.command.frameBody?).mapM (ownOutput settings lettering) =
        .ok texts := by
  induction runs with
  | none => exact ⟨[], by simp, rfl⟩
  | @some turn later stage next after acts more ih =>
      rcases acts.frames with ⟨first, isFirst, registered⟩
      rcases ih with ⟨texts, laterRegistered, each⟩
      refine ⟨first ++ texts, by rw [laterRegistered, registered, List.append_assoc], ?_⟩
      rw [mapM_eq_ok_iff] at isFirst each ⊢
      have split : ((turn :: later).filterMap fun turn => turn.command.frameBody?) =
          turn.command.frameBody?.toList ++ later.filterMap fun turn => turn.command.frameBody? := by
        cases holds : turn.command.frameBody? <;> simp [holds]
      rw [split]
      exact List.rel_append isFirst each

end Runs

/-- A scene that holds what a program draws and declares, the timeline aside: as output the drawings that
stand directly in the program; for each turn of a frame the drawings that stand directly in the frame;
the colour of the last background; and for every name the value of its last definition. -/
structure Scene.Holds (settings : Settings) (lettering : Lettering) (program : Program)
    (scene : Scene) : Prop where
  output : ownOutput settings lettering program.commands = .ok scene.output
  frames : (program.turns.filterMap fun turn => turn.command.frameBody?).mapM
    (ownOutput settings lettering) = .ok scene.frames.toList
  background : scene.background = backgroundAfter "black" program.turns
  distinct : (scene.bindings.map Prod.fst).Nodup
  bindings : ∀ name, scene.bindings.lookup name =
    (program.turns.filterMap fun turn => turn.command.definition?).reverse.lookup name

/-- What an evaluation gives, and that it does not depend on the children of animations that are no
frames. -/
theorem Program.evaluate_holds {settings : Settings} {lettering : Lettering} {program : Program}
    {scene : Scene} (evaluated : (program.evaluate settings lettering).outcome = .ok scene) :
    scene.Holds settings lettering program ∧
      ∀ other : Program, other.played = program.played →
        other.evaluate settings lettering = program.evaluate settings lettering := by
  constructor
  · rcases runs_of_evaluate evaluated with ⟨output, after, own, runs, rfl⟩
    rcases runs.frames with ⟨texts, registered, each⟩
    refine ⟨own, ?_, runs.background, ?_, ?_⟩
    · rw [each]
      simp [Stage.scene, registered]
    · simp only [Stage.scene, runs.bindings]
      exact Variables.nodup_defineAll (by simp) _
    · intro name
      simp [Stage.scene, runs.bindings, Variables.lookup_defineAll]
  · intro other same
    rw [← other.evaluate_played, same, program.evaluate_played]

/-- Frames in a frame and in a frame of an animation, and definitions at both depths. -/
theorem Program.evaluate_holds_nested :
    ∃ (settings : Settings) (lettering : Lettering) (program : Program) (scene : Scene),
      (program.evaluate settings lettering).outcome = .ok scene ∧
        scene.output = "AB" ∧ scene.frames = #["G", "F", "Y"] ∧ scene.background = "blue" ∧
        scene.Holds settings lettering program ∧
        ∀ other : Program, other.played = program.played →
          other.evaluate settings lettering = program.evaluate settings lettering := by
  let zero := Binary64.ofInt 0
  let write : String → Command := fun text => .draw (.text text zero zero 12 "red") none
  let program : Program :=
    ⟨[.define "a" zero none, write "A",
      .frame [write "F", .frame [write "G"] none, .background "blue" none] none,
      .animate
        [.wait 5 none,
          .frame [write "X", .frame [write "Y"] none, .define "a" (Binary64.ofInt 2) none] none,
          write "Z"]
        120 none,
      write "B"], none⟩
  let scene : Scene :=
    { timeline := #[.picture "X" "blue" 120 ""]
      frames := #["G", "F", "Y"]
      output := "AB"
      background := "blue"
      bindings := [("a", Binary64.ofInt 2)] }
  have evaluated : (program.evaluate { color := false } fun _ text => .drawn text).outcome =
      .ok scene := by decide +kernel
  exact ⟨_, _, program, scene, evaluated, rfl, rfl, rfl, Program.evaluate_holds evaluated⟩

end TermScene
