import Mathlib.Data.List.TakeWhile
import TermScene.Text.Lines

/-!
# Colour codes

Text that is meant for a terminal holds colour codes, which are not shown. A colour code is an escape
character, a bracket, digits and semicolons, and the letter `m`; what is left of a text without them is
what a terminal shows of it.
-/

namespace TermScene

namespace Terminal

def isControl (char : Char) : Bool :=
  char.toNat < 0x20 || (0x7f ≤ char.toNat && char.toNat ≤ 0x9f)

def isColorParameter (char : Char) : Bool := char.isDigit || char == ';'

/-- What is behind the colour code that some characters begin with. -/
def afterColor? : List Char → Option (List Char)
  | '\x1b' :: '[' :: rest =>
      match rest.dropWhile isColorParameter with
      | 'm' :: later => some later
      | _ => none
  | _ => none

theorem afterColor?_eq_some {chars later : List Char} (found : afterColor? chars = some later) :
    ∃ parameters, (∀ char ∈ parameters, isColorParameter char = true) ∧
      chars = '\x1b' :: '[' :: (parameters ++ 'm' :: later) := by
  unfold afterColor? at found
  split at found
  · rename_i rest
    split at found
    · rename_i behind isBehind
      simp only [Option.some.injEq] at found
      subst found
      refine ⟨rest.takeWhile isColorParameter, ?_, ?_⟩
      · intro char inside
        exact List.mem_takeWhile_imp inside
      · rw [← isBehind, List.takeWhile_append_dropWhile]
    · simp at found
  · simp at found

/-- A text without its colour codes. -/
def withoutColors (chars : List Char) : List Char :=
  match chars with
  | [] => []
  | char :: rest =>
      match _found : afterColor? (char :: rest) with
      | some later => withoutColors later
      | none => char :: withoutColors rest
  termination_by chars.length
  decreasing_by
    · rcases afterColor?_eq_some _found with ⟨parameters, -, isCode⟩
      rw [isCode]
      simp only [List.length_cons, List.length_append]
      omega
    · simp

theorem count_withoutColors (chars : List Char) :
    (withoutColors chars).count '\n' = chars.count '\n' := by
  fun_induction withoutColors chars with
  | case1 => rfl
  | case2 char rest later found ih =>
      rcases afterColor?_eq_some found with ⟨parameters, areParameters, isCode⟩
      have none : parameters.count '\n' = 0 := by
        rw [List.count_eq_zero]
        intro inside
        exact absurd (areParameters _ inside) (by decide)
      rw [isCode, ih]
      simp [none]
  | case3 char rest notFound ih => rw [List.count_cons, List.count_cons, ih]

theorem length_newlineParts (chars : List Char) :
    (newlineParts chars).length = chars.count '\n' + 1 := by
  induction chars with
  | nil => rfl
  | cons char rest ih =>
      rcases restParts : newlineParts rest with _ | ⟨part, later⟩
      · exact absurd restParts (partsAt_ne_nil _ _)
      by_cases newline : char = '\n'
      · subst newline
        rw [newlineParts, partsAt_separator, ← newlineParts, List.length_cons, ih,
          List.count_cons_self]
      · rw [newlineParts, partsAt_cons_of_ne newline restParts, List.count_cons_of_ne newline, ← ih,
          restParts, List.length_cons, List.length_cons]

/-- A text in which nothing but newlines and colour codes is not to be shown itself. -/
def IsShowable (text : String) : Prop :=
  ∀ char ∈ withoutColors text.toList, char = '\n' ∨ isControl char = false

/-- The rows that a text takes on a terminal. -/
def textRows (text : String) : List (List Char) := newlineParts (withoutColors text.toList)

theorem length_textRows (text : String) :
    (textRows text).length = text.toList.count '\n' + 1 := by
  rw [textRows, length_newlineParts, count_withoutColors]

end Terminal

end TermScene
