import TermScene.Proofs.Terminal.Cursor
import TermScene.Terminal.Session

/-!
# The terminal is restored

However the playback of a scene ends, the terminal is left as it was found. The first update hides the
cursor before anything is drawn, and when the display is closed everything is taken back and the cursor
shown; without an update none of these codes is written. For any calls of a display, its cursor is hidden
exactly when the display takes it to be, and stays shown after a close until the next update that draws.

A call is described by what it writes: quiet text, with the code that hides the cursor in front if the
call hides it.
-/

namespace TermScene

open Terminal

/-- The characters that are written on a terminal. -/
def written (events : List TerminalEvent) : List Char :=
  events.flatMap fun
    | .write text => text.toList
    | .sleep _ => []

/-- Characters of which only codes begin with an escape that set a colour or take it back. -/
inductive HasOnlyColors : List Char → Prop where
  | nil : HasOnlyColors []
  | char {char : Char} {rest : List Char} (plain : char ≠ '\x1b') (more : HasOnlyColors rest) :
      HasOnlyColors (char :: rest)
  | setForeground {parameters rest : List Char}
      (areParameters : ∀ char ∈ parameters, isColorParameter char = true) (more : HasOnlyColors rest) :
      HasOnlyColors (controlCode ("38;2".toList ++ parameters) 'm' ++ rest)
  | setBackground {parameters rest : List Char}
      (areParameters : ∀ char ∈ parameters, isColorParameter char = true) (more : HasOnlyColors rest) :
      HasOnlyColors (controlCode ("48;2".toList ++ parameters) 'm' ++ rest)
  | closeForeground {rest : List Char} (more : HasOnlyColors rest) :
      HasOnlyColors (controlCode "39".toList 'm' ++ rest)
  | closeBackground {rest : List Char} (more : HasOnlyColors rest) :
      HasOnlyColors (controlCode "49".toList 'm' ++ rest)

theorem HasOnlyColors.isQuiet {text : List Char} (colors : HasOnlyColors text) : IsQuiet text := by
  induction colors with
  | nil => exact .nil
  | char plain more ih => exact .char plain ih
  | setForeground areParameters more ih =>
      refine (IsQuiet.color ?_ (by simp)).append ih
      exact List.forall_mem_append.mpr ⟨List.all_eq_true.mp (by decide), areParameters⟩
  | setBackground areParameters more ih =>
      refine (IsQuiet.color ?_ (by simp)).append ih
      exact List.forall_mem_append.mpr ⟨List.all_eq_true.mp (by decide), areParameters⟩
  | closeForeground more ih => exact (IsQuiet.color (List.all_eq_true.mp (by decide)) (by decide)).append ih
  | closeBackground more ih => exact (IsQuiet.color (List.all_eq_true.mp (by decide)) (by decide)).append ih

/-- An event whose text, if it has one, is quiet. -/
def PlayEvent.IsQuiet : PlayEvent → Prop
  | .update text => Terminal.IsQuiet text.toList
  | .final text => Terminal.IsQuiet text.toList
  | .sleep _ => True

namespace Display

/-- A call of a display: something to perform, or a close. -/
inductive Call where
  | perform (event : PlayEvent)
  | close

def call (display : Display) : Call → List TerminalEvent × Display
  | .perform event => display.perform event
  | .close =>
      let (written, next) := display.close
      (written.map .write, next)

def callAll (display : Display) : List Call → List TerminalEvent × Display
  | [] => ([], display)
  | call :: later =>
      let (done, next) := display.call call
      let (rest, last) := next.callAll later
      (done ++ rest, last)

/-- Whether an event is an update that draws, its text not being shown already. -/
def Draws (display : Display) (event : PlayEvent) : Prop :=
  ∃ text, event = .update text ∧ text ++ "\n" ≠ display.liveText

/-- Whether some of the calls is an update that draws. -/
def DrawsIn (display : Display) : List Call → Prop
  | [] => False
  | call :: later =>
      (∃ event, call = .perform event ∧ display.Draws event) ∨ (display.call call).2.DrawsIn later

/-- Whether an event hides the cursor: an update that draws, if the cursor is managed and not hidden. -/
def Hides (display : Display) (event : PlayEvent) : Prop :=
  display.managesCursor = true ∧ display.hidden = false ∧ display.Draws event

section Calls

variable {display : Display} {event : PlayEvent} {events : List PlayEvent} {calls : List Call}

@[simp]
theorem written_append (first later : List TerminalEvent) :
    written (first ++ later) = written first ++ written later := by
  simp [written]

theorem perform_update_of_same {text : String} (same : text ++ "\n" = display.liveText) :
    display.perform (.update text) = ([], display) := by
  simp [perform, update, same]

/-- The text that an update writes over the live text. -/
theorem isQuiet_drawn (display : Display) {text : String} (quiet : IsQuiet text.toList) :
    IsQuiet (eraseLines display.liveLines ++ (text ++ "\n")).toList := by
  rw [String.toList_append, String.toList_append]
  exact (IsQuiet.eraseLines _).append (quiet.append (.of_plain (by decide)))

theorem perform_of_hides (hides : display.Hides event) (quiet : event.IsQuiet) :
    (display.perform event).2.hidden = true ∧
      ∃ text, IsQuiet text ∧ written (display.perform event).1 = hideCursor.toList ++ text := by
  rcases hides with ⟨manages, shown, text, rfl, other⟩
  simp only [perform, update, if_neg other, manages, shown]
  exact ⟨by simp, _, display.isQuiet_drawn quiet, by simp [written]⟩

theorem managesHidden_eq_false (shows : ¬display.Hides event) (draws : display.Draws event) :
    (display.managesCursor && !display.hidden) = false := by
  rw [Bool.eq_false_iff]
  intro hides
  rw [Bool.and_eq_true, Bool.not_eq_true'] at hides
  exact shows ⟨hides.1, hides.2, draws⟩

theorem perform_hidden (shows : ¬display.Hides event) :
    (display.perform event).2.hidden = display.hidden := by
  cases event with
  | update text =>
      by_cases same : text ++ "\n" = display.liveText
      · rw [perform_update_of_same same]
      · simp [perform, update, same, managesHidden_eq_false shows ⟨text, rfl, same⟩]
  | _ => rfl

theorem perform_isQuiet (shows : ¬display.Hides event) (quiet : event.IsQuiet) :
    IsQuiet (written (display.perform event).1) := by
  cases event with
  | update text =>
      by_cases same : text ++ "\n" = display.liveText
      · rw [perform_update_of_same same]
        exact .nil
      · simpa [perform, update, same, managesHidden_eq_false shows ⟨text, rfl, same⟩, written] using
          display.isQuiet_drawn quiet
  | final text =>
      have line : IsQuiet (text ++ "\n").toList := by
        rw [String.toList_append]
        exact quiet.append (.of_plain (by decide))
      simpa [perform, final, written] using line
  | sleep duration => exact .nil

theorem performAll_cons (display : Display) (event : PlayEvent) (later : List PlayEvent) :
    display.performAll (event :: later) =
      ((display.perform event).1 ++ ((display.perform event).2.performAll later).1,
        ((display.perform event).2.performAll later).2) :=
  rfl

/-- Where no event hides the cursor it stays as it is, and only quiet text is written. The invariant tells
the displays on the way. -/
theorem performAll_of_not_hides {invariant : Display → Prop}
    (kept : ∀ event ∈ events, ∀ display, invariant display →
      ¬display.Hides event ∧ invariant (display.perform event).2)
    (start : invariant display) (quiet : ∀ event ∈ events, event.IsQuiet) :
    (display.performAll events).2.hidden = display.hidden ∧
      IsQuiet (written (display.performAll events).1) := by
  induction events generalizing display with
  | nil => exact ⟨rfl, .nil⟩
  | cons event later ih =>
      rcases List.forall_mem_cons.mp kept with ⟨keptFirst, keptLater⟩
      rcases List.forall_mem_cons.mp quiet with ⟨isQuiet, laterQuiet⟩
      rcases keptFirst display start with ⟨shows, next⟩
      rcases ih keptLater next laterQuiet with ⟨stays, quietLater⟩
      rw [performAll_cons, written_append]
      exact ⟨stays.trans (perform_hidden shows), (perform_isQuiet shows isQuiet).append quietLater⟩

/-- A hidden cursor stays hidden, and its code is not written again. -/
theorem performAll_of_hidden (hidden : display.hidden = true)
    (quiet : ∀ event ∈ events, event.IsQuiet) :
    (display.performAll events).2.hidden = true ∧ IsQuiet (written (display.performAll events).1) := by
  have kept : ∀ event ∈ events, ∀ display : Display, display.hidden = true →
      ¬display.Hides event ∧ (display.perform event).2.hidden = true := by
    intro event _ display hidden
    have shows : ¬display.Hides event := by
      rintro ⟨-, shown, -⟩
      simp [hidden] at shown
    exact ⟨shows, (perform_hidden shows).trans hidden⟩
  rw [← hidden]
  exact performAll_of_not_hides kept hidden quiet

/-- Only an update hides the cursor. -/
theorem performAll_of_no_update (noUpdate : ∀ text, .update text ∉ events)
    (quiet : ∀ event ∈ events, event.IsQuiet) :
    (display.performAll events).2.hidden = display.hidden ∧
      IsQuiet (written (display.performAll events).1) := by
  have kept : ∀ event ∈ events, ∀ display : Display, True → ¬display.Hides event ∧ True := by
    intro event inside display _
    refine ⟨?_, trivial⟩
    rintro ⟨-, -, text, rfl, -⟩
    exact noUpdate text inside
  exact performAll_of_not_hides kept trivial quiet

end Calls

/-- Events among which nothing is updated any more after a final text. -/
def EndsWithFinal (events : List PlayEvent) : Prop :=
  events.Pairwise fun earlier later => ∀ settled live, earlier = .final settled → later ≠ .update live

/-- Events without a final text can come before any others. -/
theorem EndsWithFinal.append {events later : List PlayEvent}
    (noFinal : ∀ event ∈ events, ∀ text, event ≠ .final text) (ends : EndsWithFinal later) :
    EndsWithFinal (events ++ later) := by
  refine List.pairwise_append.mpr ⟨List.pairwise_of_forall_mem_list ?_, ends, ?_⟩
  · exact fun event inside _ _ settled _ isFinal => absurd isFinal (noFinal event inside settled)
  · exact fun event inside _ _ settled _ isFinal => absurd isFinal (noFinal event inside settled)

/-- The first update of a display hides the cursor before anything is drawn. -/
theorem performAll_of_update {display : Display} {events : List PlayEvent} {text : String}
    (manages : display.managesCursor = true) (shown : display.hidden = false)
    (fresh : display.liveText = "") (updated : .update text ∈ events) (ends : EndsWithFinal events)
    (quiet : ∀ event ∈ events, event.IsQuiet) :
    (display.performAll events).2.hidden = true ∧
      ∃ text, IsQuiet text ∧ written (display.performAll events).1 = hideCursor.toList ++ text := by
  induction events with
  | nil => cases updated
  | cons event later ih =>
      rcases List.forall_mem_cons.mp quiet with ⟨isQuiet, laterQuiet⟩
      rcases List.pairwise_cons.mp ends with ⟨isLast, laterEnds⟩
      cases event with
      | update first =>
          have hides : display.Hides (.update first) := ⟨manages, shown, first, rfl, by simp [fresh]⟩
          rcases perform_of_hides hides isQuiet with ⟨hidden, drawn, quietDrawn, isDrawn⟩
          rcases performAll_of_hidden hidden laterQuiet with ⟨stays, quietLater⟩
          refine ⟨stays, _, quietDrawn.append quietLater, ?_⟩
          rw [performAll_cons, written_append, isDrawn, List.append_assoc]
      | final settled =>
          have isLater : .update text ∈ later := by simpa using updated
          exact absurd rfl (isLast _ isLater settled text rfl)
      | sleep duration => exact ih (by simpa using updated) laterEnds laterQuiet

section Cursor

variable {display : Display} {calls : List Call}

def Call.IsQuiet : Call → Prop
  | .perform event => event.IsQuiet
  | .close => True

/-- The display knows after a call whether the cursor is hidden, if it knew before. -/
theorem cursorHidden_call {call : Call} (quiet : call.IsQuiet) (rest : List Char) :
    cursorHidden display.hidden (written (display.call call).1 ++ rest) =
      cursorHidden (display.call call).2.hidden rest := by
  cases call with
  | perform event =>
      by_cases hides : display.Hides event
      · rcases perform_of_hides hides quiet with ⟨hidden, text, quietText, isText⟩
        rw [Display.call, isText, hidden, List.append_assoc, cursorHidden_hideCursor,
          quietText.cursorHidden_append]
      · rw [Display.call, perform_hidden hides, (perform_isQuiet hides quiet).cursorHidden_append]
  | close =>
      cases hidden : display.hidden <;>
        simp [Display.call, close, hidden, written, List.append_assoc]

theorem cursorHidden_callAll (quiet : ∀ call ∈ calls, call.IsQuiet) :
    cursorHidden display.hidden (written (display.callAll calls).1) =
      (display.callAll calls).2.hidden := by
  induction calls generalizing display with
  | nil => rfl
  | cons call later ih =>
      rcases List.forall_mem_cons.mp quiet with ⟨isQuiet, laterQuiet⟩
      simp only [callAll, written_append]
      rw [cursorHidden_call isQuiet, ih laterQuiet]

theorem call_close_hidden (display : Display) : (display.call .close).2.hidden = false := by
  cases hidden : display.hidden <;> simp [Display.call, close, hidden]

theorem callAll_append (display : Display) (first later : List Call) :
    display.callAll (first ++ later) =
      ((display.callAll first).1 ++ ((display.callAll first).2.callAll later).1,
        ((display.callAll first).2.callAll later).2) := by
  induction first generalizing display with
  | nil => simp [callAll]
  | cons call rest ih => simp [callAll, ih]

/-- A cursor that is shown stays shown until an update draws. -/
theorem callAll_shown (shown : display.hidden = false) (none : ¬display.DrawsIn calls) :
    (display.callAll calls).2.hidden = false := by
  induction calls generalizing display with
  | nil => exact shown
  | cons call later ih =>
      rw [DrawsIn, not_or] at none
      refine ih ?_ none.2
      cases call with
      | perform event =>
          have shows : ¬display.Hides event := fun hides => none.1 ⟨event, rfl, hides.2.2⟩
          exact (perform_hidden shows).trans shown
      | close => simp [close, shown]

end Cursor

end Display

/-- A scene that shows no text but such as has only codes of colours. -/
structure Scene.HasOnlyColors (scene : Scene) : Prop where
  pictures : ∀ content background hold overlay,
    .picture content background hold overlay ∈ scene.timeline.toList →
      TermScene.HasOnlyColors content.toList ∧ TermScene.HasOnlyColors overlay.toList
  frames : ∀ frame ∈ scene.frames.toList, TermScene.HasOnlyColors frame.toList
  output : TermScene.HasOnlyColors scene.output.toList

section Playing

variable {settings : Settings} {scene : Scene} {events : List PlayEvent}

theorem prefix_of_throughSleep? {number : ℕ} {front : List PlayEvent}
    (stops : throughSleep? events number = some front) : front <+: events := by
  induction events generalizing number front with
  | nil => simp [throughSleep?] at stops
  | cons event later ih =>
      have goesOn {last : ℕ} (isFront : (throughSleep? later last).map (event :: ·) = some front) :
          front <+: event :: later := by
        rcases Option.map_eq_some_iff.mp isFront with ⟨rest, isRest, rfl⟩
        exact (List.prefix_cons_inj event).mpr (ih isRest)
      cases event with
      | sleep duration =>
          rw [throughSleep?] at stops
          split at stops
          · cases stops
            simp
          · exact goesOn stops
      | update text => exact goesOn stops
      | final text => exact goesOn stops

theorem Trace.stopAt_prefix (trace : Trace) (number : Option ℕ) :
    (trace.stopAt number).events <+: trace.events := by
  rw [stopAt]
  split
  · rename_i front stops
    rcases Option.bind_eq_some_iff.mp stops with ⟨last, -, isFront⟩
    exact prefix_of_throughSleep? isFront
  · exact List.prefix_rfl

namespace Scene

/-- A playback does no more than its timeline and what follows. -/
theorem play_prefix (settings : Settings) (scene : Scene) (passes : Passes) (stop : Option ℕ) :
    (scene.play settings passes stop).events <+:
      (timelineTrace settings scene.timeline.toList).events ++
        (scene.closing settings passes stop).events := by
  rw [play]
  split
  · exact Trace.stopAt_prefix _ _
  · exact (Trace.stopAt_prefix _ _).trans (List.prefix_append _ _)

theorem isQuiet_timeline {steps : List Step}
    (colors : ∀ content background hold overlay, .picture content background hold overlay ∈ steps →
      TermScene.HasOnlyColors content.toList ∧ TermScene.HasOnlyColors overlay.toList) :
    ∀ event ∈ (timelineTrace settings steps).events,
      event.IsQuiet ∧ ∀ text, event ≠ .final text := by
  induction steps with
  | nil => simp [timelineTrace]
  | cons step later ih =>
      have laterQuiet := ih fun content background hold overlay inside =>
        colors content background hold overlay (List.mem_cons_of_mem _ inside)
      cases step with
      | picture content background hold overlay =>
          rcases colors content background hold overlay List.mem_cons_self with ⟨contents, overlays⟩
          have quiet : IsQuiet (compose settings background (content ++ overlay)).toList := by
            refine .compose settings background ?_
            rw [String.toList_append]
            exact contents.isQuiet.append overlays.isQuiet
          simp only [timelineTrace, Trace.after, List.cons_append, List.nil_append, List.forall_mem_cons]
          exact ⟨⟨quiet, by simp⟩, ⟨trivial, by simp⟩, laterQuiet⟩
      | pause duration =>
          simp only [timelineTrace, Trace.after, List.cons_append, List.nil_append, List.forall_mem_cons]
          exact ⟨⟨trivial, by simp⟩, laterQuiet⟩
      | unknown description => simp [timelineTrace]

/-- Passes over the frames are made of single ones. -/
theorem frameTrace_subset (settings : Settings) (scene : Scene) (passes : Passes) (stop : Option ℕ) :
    (scene.frameTrace settings passes stop).events ⊆ scene.passEvents settings := by
  have passed (count : ℕ) : (scene.passesTrace settings count).events ⊆ scene.passEvents settings := by
    intro event inside
    rcases List.mem_flatten.mp inside with ⟨pass, isPass, isEvent⟩
    rwa [(List.mem_replicate.mp isPass).2] at isEvent
  unfold frameTrace
  split
  · exact List.nil_subset _
  · split
    · exact List.nil_subset _
    · exact passed _
    · exact passed _
    · exact passed _
    · exact List.nil_subset _

theorem isQuiet_passEvents (colors : scene.HasOnlyColors) :
    ∀ event ∈ scene.passEvents settings, event.IsQuiet ∧ ∀ text, event ≠ .final text := by
  intro event inside
  rcases List.mem_flatMap.mp inside with ⟨frame, isFrame, isEvent⟩
  have quiet := (colors.frames frame isFrame).isQuiet.compose settings scene.background
  simp only [List.mem_cons, List.not_mem_nil, or_false] at isEvent
  rcases isEvent with rfl | rfl
  · exact ⟨quiet, by simp⟩
  · exact ⟨trivial, by simp⟩

/-- What is played is quiet, and ends with a final text if it has one. -/
theorem play_isQuiet (colors : scene.HasOnlyColors) (passes : Passes) (stop : Option ℕ) :
    (∀ event ∈ (scene.play settings passes stop).events, event.IsQuiet) ∧
      Display.EndsWithFinal (scene.play settings passes stop).events := by
  have isPrefix := play_prefix settings scene passes stop
  have live := @isQuiet_timeline settings _ colors.pictures
  suffices whole : (∀ event ∈ (scene.closing settings passes stop).events, event.IsQuiet) ∧
      Display.EndsWithFinal (scene.closing settings passes stop).events by
    constructor
    · intro event inside
      rcases List.mem_append.mp (isPrefix.subset inside) with inTimeline | inClosing
      · exact (live event inTimeline).1
      · exact whole.1 event inClosing
    · exact (Display.EndsWithFinal.append (fun event inside => (live event inside).2) whole.2).sublist
        isPrefix.sublist
  rw [closing]
  split
  · exact ⟨by simpa [PlayEvent.IsQuiet] using colors.output.isQuiet.compose settings scene.background,
      List.pairwise_singleton _ _⟩
  · have pass (event : PlayEvent) (inside : event ∈ (scene.frameTrace settings passes stop).events) :=
      @isQuiet_passEvents settings scene colors event
        (frameTrace_subset settings scene passes stop inside)
    refine ⟨fun event inside => (pass event inside).1, ?_⟩
    simpa using Display.EndsWithFinal.append (fun event inside => (pass event inside).2) .nil

end Scene

end Playing

/-- A stream leaves the terminal as it was found, given whether there was an update. If so, it begins with
the code that hides the cursor, ends with those that take everything back and show the cursor, and has each
of the three nowhere else; otherwise it has none of them. -/
structure IsRestoring (updated : Prop) (stream : List Char) : Prop where
  hides : updated → hideCursor.toList <+: stream ∧ occurrences hideCursor.toList stream = 1
  restores : updated → reset.toList ++ showCursor.toList <:+ stream ∧
    occurrences reset.toList stream = 1 ∧ occurrences showCursor.toList stream = 1
  untouched : ¬updated → ∀ code ∈ [hideCursor, reset, showCursor], occurrences code.toList stream = 0
  shown : cursorHidden false stream = false

section Streams

variable {text : List Char}

theorem occurrences_restored (quiet : IsQuiet text) {parameters : List Char} {final : Char}
    (isCode : IsControlCode parameters final) (watched : (parameters, final) ∈ watchedCodes) :
    occurrences (controlCode parameters final)
        (hideCursor.toList ++ (text ++ (reset.toList ++ showCursor.toList))) =
      watchedCodes.count (parameters, final) := by
  rw [hideCursor_eq, reset_eq, showCursor_eq, occurrences_controlCode isCode isControlCode_hideCursor,
    quiet.occurrences_append isCode watched, occurrences_controlCode isCode isControlCode_reset,
    ← List.append_nil (controlCode ['?', '2', '5'] 'h'),
    occurrences_controlCode isCode isControlCode_showCursor]
  have nothing : occurrences (controlCode parameters final) [] = 0 := rfl
  simp only [watchedCodes, List.count_cons, List.count_nil, beq_iff_eq, Prod.mk.injEq, nothing,
    @eq_comm _ parameters, @eq_comm _ final]
  omega

theorem isRestoring_of_update {updated : Prop} (isUpdated : updated) (quiet : IsQuiet text) :
    IsRestoring updated (hideCursor.toList ++ (text ++ (reset.toList ++ showCursor.toList))) := by
  refine ⟨fun _ => ⟨List.prefix_append _ _, ?_⟩, fun _ => ⟨?_, ?_, ?_⟩, fun none => absurd isUpdated none, ?_⟩
  · exact occurrences_restored quiet isControlCode_hideCursor (by decide)
  · exact (List.suffix_append text _).trans (List.suffix_append hideCursor.toList _)
  · exact occurrences_restored quiet isControlCode_reset (by decide)
  · exact occurrences_restored quiet isControlCode_showCursor (by decide)
  · rw [cursorHidden_hideCursor, quiet.cursorHidden_append, cursorHidden_reset]
    rfl

theorem isRestoring_of_no_update {updated : Prop} (none : ¬updated) (quiet : IsQuiet text) :
    IsRestoring updated text := by
  have untouched {parameters : List Char} {final : Char} (isCode : IsControlCode parameters final)
      (watched : (parameters, final) ∈ watchedCodes) :
      occurrences (controlCode parameters final) text = 0 := by
    rw [← List.append_nil text]
    exact quiet.occurrences_append isCode watched []
  refine ⟨fun isUpdated => absurd isUpdated none, fun isUpdated => absurd isUpdated none, fun _ => ?_, ?_⟩
  · simp only [List.forall_mem_cons]
    exact ⟨untouched isControlCode_hideCursor (by decide), untouched isControlCode_reset (by decide),
      untouched isControlCode_showCursor (by decide), by simp⟩
  · rw [← List.append_nil text, quiet.cursorHidden_append]
    rfl

end Streams

/-- A call whose text, if it has one, has only codes of colours. -/
def Display.Call.HasOnlyColors : Display.Call → Prop
  | .perform (.update text) => TermScene.HasOnlyColors text.toList
  | .perform (.final text) => TermScene.HasOnlyColors text.toList
  | _ => True

namespace Display

theorem Call.HasOnlyColors.isQuiet {call : Call} (colors : call.HasOnlyColors) : call.IsQuiet := by
  cases call with
  | perform event =>
      cases event with
      | update text => exact TermScene.HasOnlyColors.isQuiet colors
      | final text => exact TermScene.HasOnlyColors.isQuiet colors
      | sleep duration => trivial
  | close => trivial

/-- A session that comes to an end leaves the terminal as it was found. -/
theorem session_isRestoring {trace : Trace} (quiet : ∀ event ∈ trace.events, event.IsQuiet)
    (final : EndsWithFinal trace.events) (ends : trace.ending ≠ .looping) :
    IsRestoring (∃ text, .update text ∈ trace.events) (written (session trace).1) := by
  by_cases updated : ∃ text, .update text ∈ trace.events
  · rcases updated with ⟨first, inside⟩
    rcases @performAll_of_update {} _ _ rfl rfl rfl inside final quiet with
      ⟨hidden, text, quietText, isText⟩
    have stream : written (session trace).1 =
        hideCursor.toList ++ (text ++ (reset.toList ++ showCursor.toList)) := by
      rw [session, written_append, isText, finish, if_neg ends, leave, close, if_pos hidden]
      simp [written]
    rw [stream]
    exact isRestoring_of_update ⟨first, inside⟩ quietText
  · rcases @performAll_of_no_update {} _ (not_exists.mp updated) quiet with ⟨shown, quietText⟩
    have stream : written (session trace).1 = written (({} : Display).performAll trace.events).1 := by
      rw [session, written_append, finish, if_neg ends, leave_of_shown shown]
      simp [written]
    rw [stream]
    exact isRestoring_of_no_update updated quietText

/-- The terminal is restored however a playback ends. For any calls, its cursor is hidden exactly when the
display takes it to be, and after a close only once an update draws. -/
theorem restores_terminal {settings : Settings} {scene : Scene} {passes : Passes} {stop : Option ℕ}
    (colors : scene.HasOnlyColors) (ends : (scene.play settings passes stop).ending ≠ .looping)
    (managesCursor : Bool) {calls : List Call} (callColors : ∀ call ∈ calls, call.HasOnlyColors) :
    IsRestoring (∃ text, .update text ∈ (scene.play settings passes stop).events)
        (written (session (scene.play settings passes stop)).1) ∧
      let display : Display := { managesCursor }
      cursorHidden false (written (display.callAll calls).1) = (display.callAll calls).2.hidden ∧
        ∀ before later, calls = before ++ .close :: later →
          ¬(display.callAll (before ++ [.close])).2.DrawsIn later →
            cursorHidden false (written (display.callAll calls).1) = false := by
  have quiet (call : Call) (inside : call ∈ calls) : call.IsQuiet := (callColors call inside).isQuiet
  rcases @scene.play_isQuiet settings colors passes stop with ⟨quietEvents, final⟩
  let display : Display := { managesCursor }
  have known : cursorHidden false (written (display.callAll calls).1) = (display.callAll calls).2.hidden :=
    @cursorHidden_callAll display _ quiet
  refine ⟨session_isRestoring quietEvents final ends, known, ?_⟩
  intro before later split none
  rw [known, split, List.append_cons, callAll_append]
  refine callAll_shown ?_ none
  rw [callAll_append]
  exact call_close_hidden _

/-- A frame in red that is shown for ever until it is interrupted, and a display that is closed twice. -/
theorem restores_terminal_interrupted :
    ∃ (scene : Scene) (calls : List Call),
      scene = { frames := #["\x1b[38;2;255;0;0mo\x1b[39m"] } ∧
        calls = [.perform (.update "a"), .close, .perform (.final "b"), .close] ∧
          scene.HasOnlyColors ∧ (scene.play {} .endless (some 2)).ending = .stopped ∧
            (∃ text, .update text ∈ (scene.play {} .endless (some 2)).events) ∧
            IsRestoring (∃ text, .update text ∈ (scene.play {} .endless (some 2)).events)
              (written (session (scene.play {} .endless (some 2))).1) ∧
            cursorHidden false (written (({} : Display).callAll calls).1) = false := by
  let scene : Scene := { frames := #["\x1b[38;2;255;0;0mo\x1b[39m"] }
  let calls : List Call := [.perform (.update "a"), .close, .perform (.final "b"), .close]
  have frame : TermScene.HasOnlyColors "\x1b[38;2;255;0;0mo\x1b[39m".toList :=
    @TermScene.HasOnlyColors.setForeground ";255;0;0".toList _ (List.all_eq_true.mp (by decide))
      (.char (by decide) (.closeForeground .nil))
  have colors : scene.HasOnlyColors := ⟨by simp [scene], by simpa [scene] using frame, .nil⟩
  have callColors : ∀ call ∈ calls, call.HasOnlyColors := by
    simp only [calls, List.forall_mem_cons, Call.HasOnlyColors, List.not_mem_nil, false_imp_iff,
      implies_true, and_true, true_and]
    exact ⟨.char (by decide) .nil, .char (by decide) .nil⟩
  have ending : (scene.play {} .endless (some 2)).ending = .stopped := by decide +kernel
  have updated : ∃ text, .update text ∈ (scene.play {} .endless (some 2)).events :=
    ⟨TermScene.compose {} "black" "\x1b[38;2;255;0;0mo\x1b[39m", by decide +kernel⟩
  have restored := restores_terminal colors (by rw [ending]; decide) true callColors
  have shown := restored.2.2 [.perform (.update "a")] [.perform (.final "b"), .close] rfl
    (by simp [DrawsIn, Draws])
  exact ⟨scene, calls, rfl, rfl, colors, ending, updated, restored.1, shown⟩

end Display

end TermScene
