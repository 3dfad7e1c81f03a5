import Mathlib.Data.List.Forall2
import TermScene.Color.Paint
import TermScene.Proofs.Terminal.Codes

/-!
# Text without its colour codes

Deleting the colour codes of a text is not done piece by piece in general, since a code may begin in one
piece and end in the next. It is for texts that end outside a code, such as texts that are painted. A
background painted behind any text at all is deleted without a trace.
-/

namespace TermScene

namespace Terminal

/-- A text without its colour codes. -/
def uncolored (text : String) : String := .ofList (withoutColors text.toList)

theorem toList_uncolored (text : String) :
    (uncolored text).toList = withoutColors text.toList := by
  simp [uncolored]

def IsColorCode (code : String) : Prop :=
  ∃ parameters, (∀ char ∈ parameters, isColorParameter char = true) ∧
    code.toList = '\x1b' :: '[' :: (parameters ++ ['m'])

section Characters

variable {char : Char} {parameters chars later rest : List Char}

theorem afterColor?_code (areParameters : ∀ char ∈ parameters, isColorParameter char = true)
    (later : List Char) :
    afterColor? ('\x1b' :: '[' :: (parameters ++ 'm' :: later)) = some later := by
  have behind : (parameters ++ 'm' :: later).dropWhile isColorParameter = 'm' :: later := by
    rw [List.dropWhile_append_of_pos areParameters]
    rfl
  simp [afterColor?, behind]

theorem not_mem_code (areParameters : ∀ char ∈ parameters, isColorParameter char = true)
    (noParameter : isColorParameter char = false) (isNotBracket : char ≠ '[')
    (isNotEnd : char ≠ 'm') : char ∉ '[' :: (parameters ++ ['m']) := by
  simp only [List.mem_cons, List.mem_append, List.not_mem_nil, or_false, not_or]
  refine ⟨isNotBracket, ?_, isNotEnd⟩
  intro inside
  simp [areParameters char inside] at noParameter

theorem withoutColors_of_afterColor? (found : afterColor? chars = some later) :
    withoutColors chars = withoutColors later := by
  cases chars with
  | nil => simp [afterColor?] at found
  | cons char rest =>
      rw [withoutColors]
      split
      · rename_i same
        rw [found, Option.some.injEq] at same
        rw [same]
      · rename_i none
        simp [found] at none

theorem withoutColors_of_none (none : afterColor? (char :: rest) = none) :
    withoutColors (char :: rest) = char :: withoutColors rest := by
  rw [withoutColors]
  split
  · rename_i found
    simp [none] at found
  · rfl

theorem withoutColors_cons_of_ne (differs : char ≠ '\x1b') :
    withoutColors (char :: rest) = char :: withoutColors rest := by
  apply withoutColors_of_none
  unfold afterColor?
  split
  · rename_i isEscape
    exact absurd (List.cons.inj isEscape).1 differs
  · rfl

theorem IsColorCode.withoutColors_append {code : String} (isCode : IsColorCode code)
    (rest : List Char) : withoutColors (code.toList ++ rest) = withoutColors rest := by
  rcases isCode with ⟨parameters, areParameters, isText⟩
  apply withoutColors_of_afterColor?
  simpa [isText] using afterColor?_code areParameters rest

theorem IsColorCode.newline_not_mem {code : String} (isCode : IsColorCode code) :
    '\n' ∉ code.toList := by
  rcases isCode with ⟨parameters, areParameters, isText⟩
  rw [isText, List.mem_cons, not_or]
  exact ⟨by decide, not_mem_code areParameters (by decide) (by decide) (by decide)⟩

theorem withoutColors_append_of_plain (plain : '\x1b' ∉ chars) (rest : List Char) :
    withoutColors (chars ++ rest) = chars ++ withoutColors rest := by
  induction chars with
  | nil => rfl
  | cons char later ih =>
      rw [List.mem_cons, not_or] at plain
      rw [List.cons_append, withoutColors_cons_of_ne (Ne.symm plain.1), ih plain.2, List.cons_append]

end Characters

/-- A text of which another one is left without the colour codes, whatever is written after it. -/
def ReadsAs (text plain : String) : Prop :=
  ∀ rest : List Char, withoutColors (text.toList ++ rest) = plain.toList ++ withoutColors rest

namespace ReadsAs

variable {text plain later laterPlain : String}

theorem uncolored_eq (reads : ReadsAs text plain) : uncolored text = plain := by
  have alone := reads []
  simp only [List.append_nil, withoutColors] at alone
  simp [uncolored, alone]

theorem uncolored_append (reads : ReadsAs text plain) :
    uncolored (text ++ later) = plain ++ uncolored later := by
  simp [uncolored, reads later.toList]

theorem empty : ReadsAs "" "" := fun rest => by simp

theorem append (first : ReadsAs text plain) (second : ReadsAs later laterPlain) :
    ReadsAs (text ++ later) (plain ++ laterPlain) := by
  intro rest
  rw [String.toList_append, List.append_assoc, first, second, String.toList_append,
    List.append_assoc]

theorem join {texts plains : List String} (each : List.Forall₂ ReadsAs texts plains) :
    ReadsAs (String.join texts) (String.join plains) := by
  induction each with
  | nil => exact empty
  | cons first _ ih =>
      rw [String.join_cons, String.join_cons]
      exact first.append ih

theorem self (isPlain : '\x1b' ∉ text.toList) : ReadsAs text text :=
  withoutColors_append_of_plain isPlain

end ReadsAs

section Enclosed

variable {openCode closeCode : String}

/-- Characters with a code before and one behind every newline. -/
def relined (openCode closeCode : String) (chars : List Char) : List Char :=
  chars.flatMap fun char =>
    if char = '\n' then closeCode.toList ++ '\n' :: openCode.toList else [char]

theorem relined_newline (rest : List Char) :
    relined openCode closeCode ('\n' :: rest) =
      closeCode.toList ++ '\n' :: openCode.toList ++ relined openCode closeCode rest := by
  simp [relined]

theorem relined_cons_of_ne {char : Char} (rest : List Char) (differs : char ≠ '\n') :
    relined openCode closeCode (char :: rest) = char :: relined openCode closeCode rest := by
  simp [relined, differs]

theorem relined_append (first later : List Char) :
    relined openCode closeCode (first ++ later) =
      relined openCode closeCode first ++ relined openCode closeCode later := by
  simp [relined]

theorem relined_of_no_newline {chars : List Char} (line : '\n' ∉ chars) :
    relined openCode closeCode chars = chars := by
  induction chars with
  | nil => rfl
  | cons char rest ih =>
      rw [List.mem_cons, not_or] at line
      rw [relined_cons_of_ne rest (Ne.symm line.1), ih line.2]

theorem toList_enclose {text : String} (nonempty : text ≠ "") :
    (enclose openCode closeCode text).toList =
      openCode.toList ++ relined openCode closeCode text.toList ++ closeCode.toList := by
  simp [enclose, nonempty, relined]

section Codes

variable (opens : IsColorCode openCode) (closes : IsColorCode closeCode)
include closes

/-- What comes before a code in enclosed characters is what they begin with themselves. -/
theorem exists_append_of_relined {front behind rest chars : List Char} (plain : '\x1b' ∉ front)
    (same : relined openCode closeCode chars ++ (closeCode.toList ++ behind) = front ++ rest) :
    ∃ later, chars = front ++ later := by
  rcases closes with ⟨parameters, -, isClose⟩
  induction front generalizing chars with
  | nil => exact ⟨chars, rfl⟩
  | cons char front ih =>
      rw [List.mem_cons, not_or] at plain
      rcases chars with _ | ⟨first, others⟩
      · simp [relined, isClose, plain.1] at same
      · by_cases newline : first = '\n'
        · subst newline
          simp [relined_newline, isClose, plain.1] at same
        · rw [relined_cons_of_ne others newline, List.cons_append, List.cons_append,
            List.cons.injEq] at same
          rcases same with ⟨rfl, same⟩
          rcases ih plain.2 same with ⟨later, rfl⟩
          exact ⟨later, rfl⟩

/-- Where no colour code begins, none begins when the characters are enclosed. -/
theorem afterColor?_relined {char : Char} {rest behind : List Char}
    (notFound : afterColor? (char :: rest) = none) :
    afterColor? (char :: (relined openCode closeCode rest ++ (closeCode.toList ++ behind))) = none := by
  rw [Option.eq_none_iff_forall_ne_some]
  intro later found
  rcases afterColor?_eq_some found with ⟨parameters, areParameters, isCode⟩
  rw [List.cons.injEq] at isCode
  rcases isCode with ⟨rfl, isCode⟩
  have plain : '\x1b' ∉ '[' :: (parameters ++ ['m']) :=
    not_mem_code areParameters (by decide) (by decide) (by decide)
  rw [List.append_cons, ← List.cons_append] at isCode
  rcases exists_append_of_relined closes plain isCode with ⟨others, rfl⟩
  have isSome := afterColor?_code areParameters others
  simp [isSome] at notFound

include opens

/-- Text between codes reads as the text itself without its codes. -/
theorem ReadsAs.enclose (text : String) : ReadsAs (enclose openCode closeCode text) (uncolored text) := by
  intro rest
  by_cases isEmpty : text = ""
  · simp [isEmpty, TermScene.enclose, uncolored, withoutColors]
  rw [toList_enclose isEmpty, List.append_assoc, List.append_assoc, opens.withoutColors_append,
    toList_uncolored]
  -- The induction follows the codes in the text, which hold no newline.
  fun_induction withoutColors text.toList with
  | case1 => simpa [relined] using closes.withoutColors_append rest
  | case2 char others later found ih =>
      rcases afterColor?_eq_some found with ⟨parameters, areParameters, isCode⟩
      have line : '\n' ∉ '[' :: (parameters ++ ['m']) :=
        not_mem_code areParameters (by decide) (by decide) (by decide)
      have split : char :: others = '\x1b' :: ('[' :: (parameters ++ ['m']) ++ later) := by
        simp [isCode]
      rw [split, relined_cons_of_ne _ (by decide), relined_append, relined_of_no_newline line]
      rw [withoutColors_of_afterColor? (by simpa using afterColor?_code areParameters _), ih]
  | case3 char others notFound ih =>
      by_cases newline : char = '\n'
      · subst newline
        rw [relined_newline, List.append_assoc, List.append_assoc, closes.withoutColors_append,
          List.cons_append, withoutColors_cons_of_ne (by decide), opens.withoutColors_append, ih,
          List.cons_append]
      · rw [relined_cons_of_ne others newline, List.cons_append,
          withoutColors_of_none (afterColor?_relined closes notFound), ih, List.cons_append]

end Codes

end Enclosed

end Terminal

end TermScene
