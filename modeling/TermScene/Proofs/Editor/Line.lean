import Mathlib.Data.List.DropRight
import TermScene.Editor.Word
import TermScene.Proofs.Editor.Position

/-!
# The line before a place

An editor sends a place as the number of a line and of a character in it, as newlines end lines. It is
looked up in lines that end at every line break. As long as the line breaks up to a place are newlines,
each with a carriage return before it or without, both see the same quotes before the place.
-/

namespace TermScene

/-- The part of the last line of a text, as newlines end lines. -/
def lineSoFar (before : List Char) : List Char := before.rtakeWhile (· ≠ '\n')

/-- The offset where the last line of a text starts, as newlines end lines. -/
def lineStart (before : List Char) : ℕ := (before.rdropWhile (· ≠ '\n')).length

/-- Up to an offset, the only line breaks are newlines, each with a carriage return before it or
without. -/
def BreaksAtNewlines : List Char → ℕ → Prop
  | [], _ => True
  | _ :: _, 0 => True
  | char :: rest, offset + 1 =>
      (isLineBreak char = true → char = '\n' ∨ char = '\r' ∧ rest.head? = some '\n') ∧
        BreaksAtNewlines rest offset

instance decidableBreaksAtNewlines :
    (chars : List Char) → (offset : ℕ) → Decidable (BreaksAtNewlines chars offset)
  | [], _ => .isTrue trivial
  | _ :: _, 0 => .isTrue trivial
  | char :: rest, offset + 1 =>
      have := decidableBreaksAtNewlines rest offset
      inferInstanceAs (Decidable
        ((isLineBreak char = true → char = '\n' ∨ char = '\r' ∧ rest.head? = some '\n') ∧
          BreaksAtNewlines rest offset))

section LineSoFar

variable {char : Char} {before : List Char}

theorem rdropWhile_append_lineSoFar (before : List Char) :
    before.rdropWhile (· ≠ '\n') ++ lineSoFar before = before :=
  List.rdropWhile_append_rtakeWhile

@[simp]
theorem lineSoFar_nil : lineSoFar [] = [] := rfl

theorem lineSoFar_of_not_mem (noNewline : '\n' ∉ before) : lineSoFar before = before := by
  rw [lineSoFar, List.rtakeWhile_eq_self_iff]
  intro char inside
  simpa using fun isNewline : char = '\n' => noNewline (isNewline ▸ inside)

theorem lineSoFar_append_newline (first before : List Char) :
    lineSoFar (first ++ '\n' :: before) = lineSoFar before := by
  induction before using List.reverseRecOn with
  | nil => exact List.rtakeWhile_concat_neg _ _ _ (by simp)
  | append_singleton before char ih =>
      simp only [lineSoFar, ← List.cons_append, ← List.append_assoc, List.rtakeWhile_concat] at ih ⊢
      rw [ih]

@[simp]
theorem lineSoFar_newline (before : List Char) : lineSoFar ('\n' :: before) = lineSoFar before :=
  lineSoFar_append_newline [] before

theorem lineSoFar_cons_of_mem (newline : '\n' ∈ before) :
    lineSoFar (char :: before) = lineSoFar before := by
  rcases List.append_of_mem newline with ⟨first, later, rfl⟩
  rw [← List.cons_append, lineSoFar_append_newline, lineSoFar_append_newline]

theorem lineSoFar_cons_of_not_mem (noNewline : '\n' ∉ before) (other : char ≠ '\n') :
    lineSoFar (char :: before) = char :: lineSoFar before := by
  rw [lineSoFar_of_not_mem noNewline, lineSoFar_of_not_mem]
  simpa [noNewline] using other.symm

/-- The position of a place is how many newlines are before it, and how much of its line. -/
theorem Position.after_eq (before : List Char) :
    Position.after before = ⟨before.count '\n', (lineSoFar before).length⟩ := by
  simp [Position.after, ofLocation, placeAfter, lineAfter, columnAfter, lineSoFar, List.rtakeWhile]

end LineSoFar

namespace Editor

/-- A line of a text as an editor looks it up, empty if there is none. -/
def lineOf (chars : List Char) (line : ℕ) : List Char := ((textLines chars)[line]?).getD []

section LineOf

variable {char : Char} {chars rest : List Char} {line : ℕ}

@[simp]
theorem lineOf_nil : lineOf [] line = [] := rfl

theorem lineOf_break_succ (isBreak : isLineBreak char = true)
    (paired : char = '\r' → rest.head? ≠ some '\n') :
    lineOf (char :: rest) (line + 1) = lineOf rest line := by
  rw [lineOf, textLines, if_pos isBreak, List.getElem?_cons_succ, lineOf]
  · rintro later rfl rfl
    exact paired rfl rfl

@[simp]
theorem lineOf_returnNewline_zero : lineOf ('\r' :: '\n' :: rest) 0 = [] := by
  simp [lineOf, textLines]

@[simp]
theorem lineOf_returnNewline_succ : lineOf ('\r' :: '\n' :: rest) (line + 1) = lineOf rest line := by
  simp [lineOf, textLines]

theorem ne_return_of_inLine (inLine : isLineBreak char = false) : char ≠ '\r' := by
  rintro rfl
  exact absurd inLine (by decide)

theorem lineOf_cons_zero (inLine : isLineBreak char = false) :
    lineOf (char :: rest) 0 = char :: lineOf rest 0 := by
  rw [lineOf, textLines, inLine, lineOf]
  · cases textLines rest <;> rfl
  · exact fun _ isReturn => absurd isReturn (ne_return_of_inLine inLine)

theorem lineOf_cons_succ (inLine : isLineBreak char = false) :
    lineOf (char :: rest) (line + 1) = lineOf rest (line + 1) := by
  rw [lineOf, textLines, inLine, lineOf]
  · cases textLines rest <;> simp
  · exact fun _ isReturn => absurd isReturn (ne_return_of_inLine inLine)

/-- Both notions of a line agree on the quotes before a place. -/
theorem count_take_lineOf {offset : ℕ} (breaks : BreaksAtNewlines chars offset)
    (inside : offset ≤ chars.length) :
    ((lineOf chars ((chars.take offset).count '\n')).take (lineSoFar (chars.take offset)).length).count '"' =
      (lineSoFar (chars.take offset)).count '"' := by
  induction chars using textLines.induct generalizing offset with
  | case1 => simp
  | case2 rest ih =>
      rcases offset with _ | _ | offset
      · simp
      · -- The place is between the return and the newline.
        simp [lineSoFar_of_not_mem]
      · have isLater := ih breaks.2.2 (by simpa using inside)
        simpa [lineSoFar_cons_of_mem] using isLater
  | case3 char rest other isBreak ih =>
      rcases offset with _ | offset
      · simp
      have isNewline : char = '\n' := by
        rcases breaks.1 isBreak with isNewline | ⟨isReturn, newline⟩
        · exact isNewline
        · rcases rest with _ | ⟨next, rest⟩
          · simp at newline
          · exact absurd (by simpa using newline) (other rest isReturn)
      have isLater := ih breaks.2 (by simpa using inside)
      subst isNewline
      rwa [List.take_succ_cons, List.count_cons_self, lineOf_break_succ isBreak (by simp),
        lineSoFar_newline]
  | case4 char rest other inLine line later lines ih | case5 char rest other inLine lines ih =>
      rcases offset with _ | offset
      · simp
      have isLater := ih breaks.2 (by simpa using inside)
      have ordinary : char ≠ '\n' := by
        rintro rfl
        exact inLine (by decide)
      have isInLine : isLineBreak char = false := by simpa using inLine
      rw [List.take_succ_cons, List.count_cons_of_ne ordinary]
      by_cases newline : '\n' ∈ rest.take offset
      · rcases Nat.exists_eq_add_one.mpr (List.count_pos_iff.mpr newline) with ⟨before, isBefore⟩
        rwa [isBefore, lineOf_cons_succ isInLine, ← isBefore, lineSoFar_cons_of_mem newline]
      · rw [List.count_eq_zero.mpr newline] at isLater ⊢
        rw [lineOf_cons_zero isInLine, lineSoFar_cons_of_not_mem newline ordinary, List.length_cons,
          List.take_succ_cons, List.count_cons, List.count_cons, isLater]

/-- An editor counts the quotes on the line as it looks it up. -/
theorem insideString_after_iff {source : String} {before : List Char} :
    insideString source (.after before) = true ↔
      Odd (((lineOf source.toList (before.count '\n')).take (lineSoFar before).length).count '"') := by
  have textBefore_eq (line : List Char) :
      textBefore line (lineSoFar before).length = line.take (lineSoFar before).length := by
    simp [textBefore, show ¬((lineSoFar before).length : ℤ) < 0 by omega]
  rw [insideString, lineAt?, Position.after_eq, if_pos (by simp), Int.toNat_natCast, lineOf,
    Nat.odd_iff]
  cases (textLines source.toList)[before.count '\n']? with
  | none => simp
  | some line => simp [textBefore_eq]

end LineOf

end Editor

end TermScene
