import TermScene.Proofs.Color.Rainbow
import TermScene.Proofs.Scene.Success
import TermScene.Proofs.Scene.Turn

/-!
# The memory of rainbow text

Rainbow text is evaluated with a memory of its overlays by hue. The hues come in rounds, so after any
number of steps the memory holds the overlays of the first hues, as many as there were steps but never
more than a round, and a hue that comes again finds its own overlay. The memory therefore cannot be
seen from outside: the steps are those of rainbow text that is drawn anew for each of them.
-/

namespace TermScene

/-- A stage with steps added to it that show overlays, one after another, over an output. -/
def Stage.withOverlays (settings : Settings) (output : String) (overlays : List String)
    (stage : Stage) : Stage :=
  { stage with timeline := stage.timeline ++
      overlays.map (Step.picture output stage.background settings.rainbowStep) }

namespace Evaluating

/-- What is remembered after a number of steps of rainbow text with these overlays. -/
def remembered (paint : ℤ → String) (count : ℕ) : Overlays :=
  (List.range (min count hueCycle)).map fun hue => (hue, paint hue)

section Memory

variable {paint : ℤ → String} {count hue : ℕ}

@[simp] theorem length_remembered : (remembered paint count).length = min count hueCycle := by
  simp [remembered]

theorem hues_remembered : (remembered paint count).map Prod.fst = List.range (min count hueCycle) := by
  simp [remembered, Function.comp_def]

theorem lookup_remembered (known : hue < min count hueCycle) :
    (remembered paint count).lookup hue = some (paint hue) :=
  List.lookup_graph (fun hue : ℕ => paint hue) (List.mem_range.mpr known)

theorem lookup_remembered_eq_none (unknown : min count hueCycle ≤ hue) :
    (remembered paint count).lookup hue = none := by
  rw [List.lookup_eq_none_iff]
  intro entry isEntry
  have isHue : entry.1 ∈ (remembered paint count).map Prod.fst := List.mem_map_of_mem isEntry
  rw [hues_remembered, List.mem_range] at isHue
  rw [bne_iff_ne]
  omega

theorem remembered_succ (isNew : count < hueCycle) :
    remembered paint (count + 1) = remembered paint count ++ [(count, paint count)] := by
  rw [remembered, remembered, min_eq_left (by omega), min_eq_left (by omega), List.range_succ,
    List.map_append, List.map_singleton]

theorem remembered_succ_of_le (full : hueCycle ≤ count) :
    remembered paint (count + 1) = remembered paint count := by
  rw [remembered, remembered, min_eq_right (by omega), min_eq_right full]

end Memory

section Steps

variable {settings : Settings} {text : String} {paint : ℤ → String}

/-- One more overlay: in the first round it is drawn and remembered, in every later round it is found in the
memory, which stays as it is. -/
theorem overlay_remembered (isPaint : Hue.IsPaint text settings.color paint) (count : ℕ) :
    overlay settings text (count % hueCycle) (remembered paint count) =
      .ok (paint count, remembered paint (count + 1)) := by
  have inRound : count % hueCycle < hueCycle := Nat.mod_lt count (by decide)
  rcases Nat.lt_or_ge count hueCycle with isNew | full
  · rw [Nat.mod_eq_of_lt isNew, overlay, lookup_remembered_eq_none (by omega), isPaint.drawn,
      remembered_succ isNew]
    rfl
  · have sameHue : paint (count % hueCycle : ℕ) = paint count := isPaint.turned count
    rw [overlay, lookup_remembered (by omega), remembered_succ_of_le full, sameHue]

theorem rainbowStep_remembered (isPaint : Hue.IsPaint text settings.color paint) (output : String)
    (count : ℕ) (stage : Stage) :
    rainbowStep settings text output (remembered paint count) count stage =
      .ok (remembered paint (count + 1))
        { stage with timeline := stage.timeline ++
            [Step.picture output stage.background settings.rainbowStep (paint count)] } := by
  rw [rainbowStep, overlay_remembered isPaint]
  rfl

/-- The overlays of rainbow text for each step of a duration. -/
def overlaysFor (paint : ℤ → String) (duration : ℤ) : List String :=
  (List.range duration.toNat).map fun (offset : ℕ) => paint offset

theorem plainOverlays_eq (isPaint : Hue.IsPaint text settings.color paint) (duration : ℤ) :
    plainOverlays settings text duration = .ok (overlaysFor paint duration) := by
  rw [plainOverlays, overlaysFor, mapM_eq_ok_iff, List.forall₂_map_right_iff, List.forall₂_same]
  exact fun offset _ => mapError_eq_ok_iff.mpr (isPaint.drawn offset)

theorem overlays_remembered (duration : ℤ) :
    (remembered paint duration.toNat).map Prod.snd = (overlaysFor paint duration).take hueCycle := by
  simp [remembered, overlaysFor, ← List.map_take, List.take_range, Function.comp_def, min_comm]

/-- By induction on the number of steps, of which the last one finds the memory of all before it. -/
theorem rainbow_remembered (isPaint : Hue.IsPaint text settings.color paint) (output : String)
    (duration : ℤ) (stage : Stage) :
    rainbow settings text output duration stage =
      .ok (remembered paint duration.toNat)
        (stage.withOverlays settings output (overlaysFor paint duration)) := by
  unfold rainbow overlaysFor Stage.withOverlays
  induction duration.toNat with
  | zero => simp [remembered, pure, EStateM.pure]
  | succ count ih =>
      rw [List.range_succ, List.foldlM_append, bind_eq_ok_iff]
      refine ⟨_, _, ih, ?_⟩
      rw [List.foldlM_cons, bind_eq_ok_iff]
      refine ⟨_, _, rainbowStep_remembered isPaint output count _, ?_⟩
      simp [pure, EStateM.pure, ← Array.toList_inj]

theorem command_rainbow (isPaint : Hue.IsPaint text settings.color paint) (lettering : Lettering)
    (x y : Binary64) (duration : ℤ) (place : Option Location) (output : String) (stage : Stage) :
    command settings lettering (.rainbow text x y duration place) output stage =
      .ok output (stage.withOverlays settings output (overlaysFor paint duration)) := by
  rw [command, bind_eq_ok_iff]
  exact ⟨_, _, rainbow_remembered isPaint output duration stage, rfl⟩

end Steps

end Evaluating

/-- Rainbow text evaluated over an output as if nothing were remembered: its steps show, in order, an overlay
that is drawn anew for each of them. What is drawn are the first of these, each once, and never more
than a round. -/
structure IsDrawnAnew (settings : Settings) (text output : String) (duration : ℤ) (stage after : Stage)
    (drawn : Evaluating.Overlays) (overlays : List String) : Prop where
  plain : plainOverlays settings text duration = .ok overlays
  after : after = stage.withOverlays settings output overlays
  hues : drawn.map Prod.fst = List.range drawn.length
  texts : drawn.map Prod.snd = overlays.take Evaluating.hueCycle
  count : (drawn.length : ℤ) = min (max 0 duration) Evaluating.hueCycle

theorem Hue.IsPaint.isDrawnAnew {settings : Settings} {text : String} {paint : ℤ → String}
    (isPaint : IsPaint text settings.color paint) (output : String) (duration : ℤ) (stage : Stage) :
    let overlays := Evaluating.overlaysFor paint duration
    IsDrawnAnew settings text output duration stage (stage.withOverlays settings output overlays)
      (Evaluating.remembered paint duration.toNat) overlays := by
  constructor
  case plain => exact Evaluating.plainOverlays_eq isPaint duration
  case after => rfl
  case hues => rw [Evaluating.length_remembered, Evaluating.hues_remembered]
  case texts => exact Evaluating.overlays_remembered duration
  case count =>
    rw [Evaluating.length_remembered]
    omega

namespace Buffering

/-- The memory of rainbow text cannot be seen, whatever the text, the duration and the output in the buffer,
which stays as it is. This rests on the hues: an offset counts in degrees of a full turn. -/
theorem visit_rainbow_isDrawnAnew (settings : Settings) (lettering : Lettering) (text : String)
    (x y : Binary64) (duration : ℤ) (place : Option Location) (kept : Kept) :
    (∀ offset enabled, Hue.rainbow text offset enabled = Hue.rainbow text (offset % 360) enabled) ∧
      ∃ drawn overlays after,
        IsDrawnAnew settings text kept.buffer duration kept.stage after drawn overlays ∧
          Evaluating.rainbow settings text kept.buffer duration kept.stage = .ok drawn after ∧
          visit settings lettering (.rainbow text x y duration place) kept =
            .ok kept.buffer { kept with stage := after } := by
  refine ⟨fun offset enabled => (Hue.rainbow_emod text offset enabled).symm, ?_⟩
  rcases Hue.exists_paint text settings.color with ⟨paint, isPaint⟩
  refine ⟨_, _, _, isPaint.isDrawnAnew kept.buffer duration kept.stage,
    Evaluating.rainbow_remembered isPaint kept.buffer duration kept.stage, ?_⟩
  have isVisit : visit settings lettering (.rainbow text x y duration place) kept =
      onStage (Evaluating.command settings lettering (.rainbow text x y duration place) kept.buffer)
        kept := rfl
  rw [isVisit, onStage, Evaluating.command_rainbow isPaint]

end Buffering

end TermScene
