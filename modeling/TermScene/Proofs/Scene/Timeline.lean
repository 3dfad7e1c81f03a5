import TermScene.Proofs.Scene.Content

/-!
# What a timeline is made of

The timeline of a scene is what the turns of the program add, in their order, and nothing else. What a
turn adds depends on its command, on what is drawn before it in its own block, and on the background
that the turns before it leave, in whatever block they are.
-/

namespace TermScene

variable {settings : Settings} {lettering : Lettering}

/-- Steps for each of some turns, those of every turn being told from its block and from the background
that the turns before it leave. -/
structure StepsOfTurns (settings : Settings) (lettering : Lettering) (background : String)
    (turns : List Turn) (parts : List (List Step)) : Prop where
  sameLength : parts.length = turns.length
  each : ∀ index (isTurn : index < turns.length) (isPart : index < parts.length),
    turns[index].steps settings lettering (backgroundAfter background (turns.take index)) =
      .ok parts[index]

theorem StepsOfTurns.cons {background : String} {turn : Turn} {later : List Turn}
    {part : List Step} {parts : List (List Step)}
    (first : turn.steps settings lettering background = .ok part)
    (more : StepsOfTurns settings lettering (turn.command.setColor?.getD background) later parts) :
    StepsOfTurns settings lettering background (turn :: later) (part :: parts) := by
  refine ⟨by simp [more.sameLength], ?_⟩
  intro index isTurn isPart
  rcases index with _ | index
  · exact first
  · simp only [List.length_cons, Nat.add_lt_add_iff_right] at isTurn isPart
    rw [List.take_succ_cons, backgroundAfter_cons]
    exact more.each index isTurn isPart

theorem Runs.timeline {turns : List Turn} {stage after : Stage}
    (runs : Runs settings lettering turns stage after) :
    ∃ parts, StepsOfTurns settings lettering stage.background turns parts ∧
      after.timeline.toList = stage.timeline.toList ++ parts.flatten := by
  induction runs with
  | none => exact ⟨[], ⟨rfl, by simp⟩, by simp⟩
  | some acts more ih =>
      rcases acts.timeline with ⟨part, isPart, added⟩
      rcases ih with ⟨parts, areParts, laterAdded⟩
      rw [acts.background] at areParts
      refine ⟨part :: parts, .cons isPart areParts, ?_⟩
      rw [laterAdded, added, List.flatten_cons, List.append_assoc]

/-- The timeline of a scene is the steps of the program's turns in a row. -/
theorem Program.evaluate_timeline {program : Program} {scene : Scene}
    (evaluated : (program.evaluate settings lettering).outcome = .ok scene) :
    ∃ parts, StepsOfTurns settings lettering "black" program.turns parts ∧
      scene.timeline.toList = parts.flatten := by
  rcases runs_of_evaluate evaluated with ⟨output, after, own, runs, rfl⟩
  simpa [Stage.scene] using runs.timeline

/-- Rainbow text inside the first frame of an animation, and a background that is set in the second: it
counts for all steps of the animation, but not for the rainbow before it. -/
theorem Program.evaluate_timeline_animation :
    ∃ (settings : Settings) (lettering : Lettering) (program : Program) (scene : Scene),
      (program.evaluate settings lettering).outcome = .ok scene ∧
        scene.timeline.toList =
          [.picture "X" "black" 10 "r", .picture "X" "blue" 100 "", .picture "Y" "blue" 100 ""] ∧
        ∃ parts, StepsOfTurns settings lettering "black" program.turns parts ∧
          scene.timeline.toList = parts.flatten := by
  let zero := Binary64.ofInt 0
  let write : String → Command := fun text => .draw (.text text zero zero 12 "red") none
  let program : Program :=
    ⟨[write "A",
      .animate
        [.frame [write "X", .rainbow "r" zero zero 1 none] none, .wait 5 none,
          .frame [.background "blue" none, write "Y"] none]
        200 none], none⟩
  let scene : Scene :=
    { timeline :=
        #[.picture "X" "black" 10 "r", .picture "X" "blue" 100 "", .picture "Y" "blue" 100 ""]
      output := "A"
      background := "blue" }
  have evaluated : (program.evaluate { color := false } fun _ text => .drawn text).outcome =
      .ok scene := by decide +kernel
  exact ⟨_, _, program, scene, evaluated, rfl, Program.evaluate_timeline evaluated⟩

end TermScene
