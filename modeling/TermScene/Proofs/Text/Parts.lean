import Mathlib.Data.List.Basic
import TermScene.Text.Lines

/-!
# Texts cut into parts

A text cut at a separator has the parts of what is before a separator and the parts of what is behind it,
and no part holds the separator. Lines that are joined by newlines are therefore found again in order, each
cut for itself.

A report that shows a line of a program and marks a place in it is such a text: carets stand in the line
below the one shown, and columns tell whether they stand under the place.
-/

namespace TermScene

section Parts

variable {separator : Char} {front rest part : List Char}

theorem partsAt_append_separator (front rest : List Char) :
    partsAt separator (front ++ separator :: rest) =
      partsAt separator front ++ partsAt separator rest := by
  induction front with
  | nil => exact partsAt_separator separator rest
  | cons char later ih =>
      by_cases isSeparator : char = separator
      · rw [isSeparator, List.cons_append, partsAt_separator, partsAt_separator, ih, List.cons_append]
      · rcases parts : partsAt separator later with _ | ⟨part, others⟩
        · exact absurd parts (partsAt_ne_nil separator later)
        · rw [parts, List.cons_append] at ih
          rw [List.cons_append, partsAt_cons_of_ne isSeparator ih, partsAt_cons_of_ne isSeparator parts,
            List.cons_append]

theorem partsAt_of_not_mem {chars : List Char} (apart : separator ∉ chars) :
    partsAt separator chars = [chars] := by
  induction chars with
  | nil => rfl
  | cons char later ih =>
      rw [List.mem_cons, not_or] at apart
      exact partsAt_cons_of_ne (Ne.symm apart.1) (ih apart.2)

theorem partsAt_append (apart : separator ∉ front) :
    partsAt separator (front ++ separator :: rest) = front :: partsAt separator rest := by
  rw [partsAt_append_separator, partsAt_of_not_mem apart, List.singleton_append]

theorem not_mem_of_mem_partsAt {chars : List Char} (inside : part ∈ partsAt separator chars) :
    separator ∉ part := by
  induction chars generalizing part with
  | nil =>
      rw [partsAt, List.foldr_nil, List.mem_singleton] at inside
      simp [inside]
  | cons char later ih =>
      by_cases isSeparator : char = separator
      · rw [isSeparator, partsAt_separator, List.mem_cons] at inside
        rcases inside with rfl | inside
        · simp
        · exact ih inside
      · rcases parts : partsAt separator later with _ | ⟨first, others⟩
        · exact absurd parts (partsAt_ne_nil separator later)
        · rw [parts] at ih
          rw [partsAt_cons_of_ne isSeparator parts, List.mem_cons] at inside
          rcases inside with rfl | inside
          · simpa [Ne.symm isSeparator] using ih List.mem_cons_self
          · exact ih (List.mem_cons_of_mem first inside)

end Parts

theorem newlineParts_intercalate {texts : List String} (nonempty : texts ≠ []) :
    newlineParts ("\n".intercalate texts).toList =
      texts.flatMap fun text => newlineParts text.toList := by
  induction texts with
  | nil => exact absurd rfl nonempty
  | cons text later ih =>
      rcases later with _ | ⟨next, later⟩
      · simp
      · have newline : "\n".toList = ['\n'] := rfl
        rw [String.intercalate_cons_cons, String.toList_append, String.toList_append, newline,
          List.append_assoc, List.singleton_append, newlineParts, partsAt_append_separator,
          ← newlineParts, ← newlineParts, ih (by simp)]
        rfl

theorem flatMap_newlineParts {texts : List String} (oneLines : ∀ text ∈ texts, '\n' ∉ text.toList) :
    (texts.flatMap fun text => newlineParts text.toList) = texts.map String.toList := by
  rw [← List.flatMap_singleton' (texts.map String.toList), List.flatMap_map]
  exact List.flatMap_congr fun text inside => partsAt_of_not_mem (oneLines text inside)

/-- A report shows a line of a program and, in the line of the report below it, carets. The line of the
program starts in one column of the report and the first caret stands in another, both counted from zero.
The last lines of the report come below the carets. -/
def Marks (report : String) (line : List Char) (start caret : ℕ) (below : List (List Char)) : Prop :=
  ∃ above shown marks, newlineParts report.toList = above ++ shown :: marks :: below ∧
    shown.drop start = line ∧ start ≤ shown.length ∧ '^' ∈ marks ∧ marks.idxOf '^' = caret

theorem marks_of_intercalate (above below : List String) {shown marks : String}
    (oneLine : '\n' ∉ shown.toList) (oneMark : '\n' ∉ marks.toList) {line : List Char} {start caret : ℕ}
    (shows : shown.toList.drop start = line) (within : start ≤ shown.toList.length)
    (isMark : '^' ∈ marks.toList) (isFirst : marks.toList.idxOf '^' = caret) :
    Marks ("\n".intercalate (above ++ shown :: marks :: below)) line start caret
      (below.flatMap fun text => newlineParts text.toList) := by
  refine ⟨above.flatMap fun text => newlineParts text.toList, shown.toList, marks.toList, ?_, shows,
    within, isMark, isFirst⟩
  rw [newlineParts_intercalate (by simp), List.flatMap_append, List.flatMap_cons, List.flatMap_cons,
    newlineParts, partsAt_of_not_mem oneLine, newlineParts, partsAt_of_not_mem oneMark]
  rfl

end TermScene
