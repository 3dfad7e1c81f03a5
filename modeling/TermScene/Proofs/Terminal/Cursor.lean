import TermScene.Proofs.Color.Uncolored
import TermScene.Proofs.Terminal.Screen

/-!
# The cursor of a terminal

A terminal hides its cursor when it reads one code and shows it when it reads another, and a third code
takes back everything that was set about its text. A text that holds none of the three is *quiet*: reading
it leaves the cursor as it is, and none of the three codes begins in it, whatever is written behind it.
Texts with no other codes than those of colours are quiet, also when they are painted, and so are the codes
that erase lines.
-/

namespace TermScene

namespace Terminal

def controlCode (parameters : List Char) (final : Char) : List Char :=
  '\x1b' :: '[' :: (parameters ++ [final])

structure IsControlCode (parameters : List Char) (final : Char) : Prop where
  areParameters : ∀ char ∈ parameters, Screen.isParameter char = true
  ends : final.isAlpha = true

/-- How often a code begins in a stream. -/
def occurrences (code stream : List Char) : ℕ := stream.tails.countP fun tail => decide (code <+: tail)

/-- Whether the cursor is hidden once a stream was read, given whether it was hidden before. -/
def cursorHidden (hidden : Bool) : List Char → Bool
  | [] => hidden
  | char :: rest =>
      cursorHidden
        (if hideCursor.toList <+: char :: rest then true
        else if showCursor.toList <+: char :: rest then false
        else hidden) rest

/-- The codes that hide the cursor, show it, and take everything back. -/
def watchedCodes : List (List Char × Char) := [(['?', '2', '5'], 'l'), (['?', '2', '5'], 'h'), (['0'], 'm')]

/-- A text with other control codes only. -/
inductive IsQuiet : List Char → Prop where
  | nil : IsQuiet []
  | char {char : Char} {rest : List Char} (plain : char ≠ '\x1b') (more : IsQuiet rest) :
      IsQuiet (char :: rest)
  | code {parameters rest : List Char} {final : Char} (isCode : IsControlCode parameters final)
      (other : (parameters, final) ∉ watchedCodes) (more : IsQuiet rest) :
      IsQuiet (controlCode parameters final ++ rest)

section Codes

variable {parameters others text rest : List Char} {final last : Char} {hidden : Bool}

theorem hideCursor_eq : hideCursor.toList = controlCode ['?', '2', '5'] 'l' := rfl

theorem showCursor_eq : showCursor.toList = controlCode ['?', '2', '5'] 'h' := rfl

theorem reset_eq : reset.toList = controlCode ['0'] 'm' := rfl

theorem controlCode_append (parameters : List Char) (final : Char) (rest : List Char) :
    controlCode parameters final ++ rest = '\x1b' :: ('[' :: (parameters ++ [final]) ++ rest) :=
  rfl

-- The parameters are looked through as a list: deciding the quantifier itself may run over all characters.
theorem isControlCode_hideCursor : IsControlCode ['?', '2', '5'] 'l' :=
  ⟨List.all_eq_true.mp (by decide), by decide⟩

theorem isControlCode_showCursor : IsControlCode ['?', '2', '5'] 'h' :=
  ⟨List.all_eq_true.mp (by decide), by decide⟩

theorem isControlCode_reset : IsControlCode ['0'] 'm' := ⟨List.all_eq_true.mp (by decide), by decide⟩

theorem isParameter_of_isAlpha {char : Char} (alpha : char.isAlpha = true) :
    Screen.isParameter char = false := by
  have bounds := toNat_of_isAlpha alpha
  simp [Screen.isParameter]
  omega

theorem not_mem_controlCode {char : Char} (isCode : IsControlCode parameters final)
    (noBracket : char ≠ '[') (noParameter : Screen.isParameter char = false)
    (noLetter : char.isAlpha = false) : char ∉ '[' :: (parameters ++ [final]) := by
  intro inside
  simp only [List.mem_cons, List.mem_append, List.not_mem_nil, or_false] at inside
  rcases inside with isBracket | isParameter | rfl
  · exact noBracket isBracket
  · simp [isCode.areParameters char isParameter] at noParameter
  · simp [isCode.ends] at noLetter

theorem escape_not_mem (isCode : IsControlCode parameters final) :
    '\x1b' ∉ '[' :: (parameters ++ [final]) :=
  not_mem_controlCode isCode (by decide) (by decide) (by decide)

/-- Only one code begins a text. -/
theorem controlCode_prefix_iff (isCode : IsControlCode parameters final)
    (isOther : IsControlCode others last) (rest : List Char) :
    controlCode parameters final <+: controlCode others last ++ rest ↔
      parameters = others ∧ final = last := by
  have notLast := isParameter_of_isAlpha isOther.ends
  have notFinal := isParameter_of_isAlpha isCode.ends
  rcases isCode with ⟨areParameters, -⟩
  rcases isOther with ⟨areOthers, -⟩
  have behind : parameters ++ [final] <+: others ++ last :: rest ↔
      parameters = others ∧ final = last := by
    -- The first letter that is no parameter ends either code.
    induction parameters generalizing others with
    | nil =>
        cases others with
        | nil => simp
        | cons other others =>
            have isOther := areOthers other List.mem_cons_self
            have differs : final ≠ other := by
              rintro rfl
              simp [notFinal] at isOther
            simp [List.cons_prefix_cons, differs]
    | cons parameter parameters ih =>
        rcases List.forall_mem_cons.mp areParameters with ⟨isParameter, areLater⟩
        cases others with
        | nil =>
            have differs : parameter ≠ last := by
              rintro rfl
              simp [notLast] at isParameter
            simp [List.cons_prefix_cons, differs]
        | cons other others =>
            have laterOthers := (List.forall_mem_cons.mp areOthers).2
            simp [List.cons_prefix_cons, ih areLater laterOthers, and_assoc]
  simp [controlCode, List.cons_prefix_cons, behind]

theorem occurrences_cons (code : List Char) (char : Char) (rest : List Char) :
    occurrences code (char :: rest) =
      occurrences code rest + if code <+: char :: rest then 1 else 0 := by
  simp [occurrences, List.tails, List.countP_cons]

theorem not_controlCode_begins {char : Char} (plain : char ≠ '\x1b') (rest : List Char) :
    ¬controlCode parameters final <+: char :: rest := by
  simp [controlCode, List.cons_prefix_cons, plain.symm]

theorem occurrences_append_of_plain (plain : '\x1b' ∉ text) (rest : List Char) :
    occurrences (controlCode parameters final) (text ++ rest) =
      occurrences (controlCode parameters final) rest := by
  induction text with
  | nil => rfl
  | cons char text ih =>
      rw [List.mem_cons, not_or] at plain
      rw [List.cons_append, occurrences_cons, if_neg (not_controlCode_begins (Ne.symm plain.1) _),
        Nat.add_zero, ih plain.2]

theorem occurrences_controlCode (isCode : IsControlCode parameters final)
    (isOther : IsControlCode others last) (rest : List Char) :
    occurrences (controlCode parameters final) (controlCode others last ++ rest) =
      occurrences (controlCode parameters final) rest +
        if parameters = others ∧ final = last then 1 else 0 := by
  have begins := controlCode_prefix_iff isCode isOther rest
  rw [controlCode_append] at begins ⊢
  rw [occurrences_cons, occurrences_append_of_plain (escape_not_mem isOther)]
  simp only [begins]

theorem IsQuiet.occurrences_append (quiet : IsQuiet text) (isCode : IsControlCode parameters final)
    (watched : (parameters, final) ∈ watchedCodes) (rest : List Char) :
    occurrences (controlCode parameters final) (text ++ rest) =
      occurrences (controlCode parameters final) rest := by
  induction quiet with
  | nil => rfl
  | @char char text plain more ih =>
      rw [List.cons_append, occurrences_cons, if_neg (not_controlCode_begins plain _), Nat.add_zero, ih]
  | @code others text last isOther other more ih =>
      have differs : ¬(parameters = others ∧ final = last) := by
        rintro ⟨rfl, rfl⟩
        exact other watched
      rw [List.append_assoc, occurrences_controlCode isCode isOther, if_neg differs, Nat.add_zero, ih]

theorem cursorHidden_append_of_plain (plain : '\x1b' ∉ text) (rest : List Char) :
    cursorHidden hidden (text ++ rest) = cursorHidden hidden rest := by
  induction text with
  | nil => rfl
  | cons char text ih =>
      rw [List.mem_cons, not_or] at plain
      rw [List.cons_append, cursorHidden, hideCursor_eq, showCursor_eq,
        if_neg (not_controlCode_begins (Ne.symm plain.1) _),
        if_neg (not_controlCode_begins (Ne.symm plain.1) _), ih plain.2]

theorem cursorHidden_controlCode (isCode : IsControlCode parameters final) (rest : List Char) :
    cursorHidden hidden (controlCode parameters final ++ rest) =
      cursorHidden
        (if ['?', '2', '5'] = parameters ∧ 'l' = final then true
        else if ['?', '2', '5'] = parameters ∧ 'h' = final then false
        else hidden) rest := by
  have hides := controlCode_prefix_iff isControlCode_hideCursor isCode rest
  have shows := controlCode_prefix_iff isControlCode_showCursor isCode rest
  rw [controlCode_append] at hides shows ⊢
  rw [cursorHidden, cursorHidden_append_of_plain (escape_not_mem isCode)]
  simp only [hideCursor_eq, showCursor_eq, hides, shows]

@[simp]
theorem cursorHidden_hideCursor (rest : List Char) :
    cursorHidden hidden (hideCursor.toList ++ rest) = cursorHidden true rest := by
  rw [hideCursor_eq, cursorHidden_controlCode isControlCode_hideCursor]
  rfl

@[simp]
theorem cursorHidden_showCursor (rest : List Char) :
    cursorHidden hidden (showCursor.toList ++ rest) = cursorHidden false rest := by
  rw [showCursor_eq, cursorHidden_controlCode isControlCode_showCursor]
  rfl

@[simp]
theorem cursorHidden_reset (rest : List Char) :
    cursorHidden hidden (reset.toList ++ rest) = cursorHidden hidden rest := by
  rw [reset_eq, cursorHidden_controlCode isControlCode_reset]
  rfl

namespace IsQuiet

theorem cursorHidden_append (quiet : IsQuiet text) (rest : List Char) :
    cursorHidden hidden (text ++ rest) = cursorHidden hidden rest := by
  induction quiet with
  | nil => rfl
  | @char char text plain more ih =>
      have isPlain : '\x1b' ∉ [char] := by simpa using plain.symm
      rw [← ih, ← List.singleton_append, List.append_assoc, cursorHidden_append_of_plain isPlain]
  | @code parameters text final isCode other more ih =>
      have notHide : ¬(['?', '2', '5'] = parameters ∧ 'l' = final) := by
        rintro ⟨rfl, rfl⟩
        exact other (by decide)
      have notShow : ¬(['?', '2', '5'] = parameters ∧ 'h' = final) := by
        rintro ⟨rfl, rfl⟩
        exact other (by decide)
      rw [List.append_assoc, cursorHidden_controlCode isCode, if_neg notHide, if_neg notShow, ih]

theorem append (quiet : IsQuiet text) (quietRest : IsQuiet rest) : IsQuiet (text ++ rest) := by
  induction quiet with
  | nil => exact quietRest
  | char plain more ih => exact .char plain ih
  | code isCode other more ih =>
      rw [List.append_assoc]
      exact .code isCode other ih

theorem of_plain (plain : '\x1b' ∉ text) : IsQuiet text := by
  induction text with
  | nil => exact .nil
  | cons char text ih =>
      rw [List.mem_cons, not_or] at plain
      exact .char (Ne.symm plain.1) (ih plain.2)

theorem single (isCode : IsControlCode parameters final) (other : (parameters, final) ∉ watchedCodes) :
    IsQuiet (controlCode parameters final) := by
  simpa using IsQuiet.code isCode other .nil

/-- Quiet text stays quiet when quiet codes are written around its newlines. -/
theorem relined {openCode closeCode : String} (quiet : IsQuiet text) (opens : IsQuiet openCode.toList)
    (closes : IsQuiet closeCode.toList) : IsQuiet (relined openCode closeCode text) := by
  induction quiet with
  | nil => exact .nil
  | @char char text plain more ih =>
      by_cases newline : char = '\n'
      · rw [newline, relined_newline]
        exact (closes.append (.char (by decide) opens)).append ih
      · rw [relined_cons_of_ne text newline]
        exact .char plain ih
  | @code parameters text final isCode other more ih =>
      have line : '\n' ∉ controlCode parameters final := by
        rw [controlCode, List.mem_cons, not_or]
        exact ⟨by decide, not_mem_controlCode isCode (by decide) (by decide) (by decide)⟩
      rw [relined_append, relined_of_no_newline line]
      exact .code isCode other ih

theorem enclose {openCode closeCode text : String} (quiet : IsQuiet text.toList)
    (opens : IsQuiet openCode.toList) (closes : IsQuiet closeCode.toList) :
    IsQuiet (enclose openCode closeCode text).toList := by
  by_cases isEmpty : text = ""
  · rw [isEmpty]
    exact .nil
  · rw [toList_enclose isEmpty]
    exact (opens.append (quiet.relined opens closes)).append closes

theorem color {parameters : List Char}
    (areParameters : ∀ char ∈ parameters, isColorParameter char = true) (other : parameters ≠ ['0']) :
    IsQuiet (controlCode parameters 'm') := by
  refine single ⟨fun char inside => ?_, by decide⟩ (by simp [watchedCodes, other])
  exact Screen.isParameter_of_isColorParameter (areParameters char inside)

theorem openCode (layer : Layer) (color : Rgb) : IsQuiet (layer.openCode color).toList := by
  rw [layer.toList_openCode color]
  refine .color (layer.isColorParameter_of_mem_parameters color) ?_
  cases layer <;> simp [Layer.parameters, Layer.setCode]

theorem closeCode (layer : Layer) : IsQuiet layer.closeCode.toList := by
  cases layer
  · exact @color ['3', '9'] (List.all_eq_true.mp (by decide)) (by decide)
  · exact @color ['4', '9'] (List.all_eq_true.mp (by decide)) (by decide)

theorem paint (layer : Layer) (color : String) (enabled : Bool) {text : String}
    (quiet : IsQuiet text.toList) : IsQuiet (paint layer color enabled text).toList := by
  cases enabled with
  | false => exact quiet
  | true => exact quiet.enclose (openCode layer _) (closeCode layer)

theorem compose (settings : Settings) (background : String) {content : String}
    (quiet : IsQuiet content.toList) : IsQuiet (compose settings background content).toList :=
  quiet.paint .background background settings.color

theorem eraseLines (count : ℕ) : IsQuiet (eraseLines count).toList := by
  have line : IsQuiet eraseLine.toList :=
    @single ['2'] 'K' ⟨List.all_eq_true.mp (by decide), by decide⟩ (by decide)
  have up : IsQuiet cursorUp.toList :=
    @single ['1'] 'A' ⟨List.all_eq_true.mp (by decide), by decide⟩ (by decide)
  have left : IsQuiet cursorLeft.toList :=
    @single [] 'G' ⟨List.all_eq_true.mp (by decide), by decide⟩ (by decide)
  induction count with
  | zero => exact .nil
  | succ count ih =>
      cases count with
      | zero =>
          rw [Screen.eraseLines_one, String.toList_append]
          exact line.append left
      | succ count =>
          rw [Screen.eraseLines_succ, String.toList_append, String.toList_append]
          exact (line.append up).append ih

end IsQuiet

end Codes

end Terminal

end TermScene
