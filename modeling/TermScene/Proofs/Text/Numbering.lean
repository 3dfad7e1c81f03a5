import TermScene.Proofs.Editor.Line
import TermScene.Proofs.Text.Parts

/-!
# Numbers of lines

A line has two numbers, one more than the newlines before it and one more than the line breaks before it.
They agree exactly if every line break before the line is a newline, with a carriage return before it or
without. Where they do, the line that has the number of a place is the one that the place is on.
-/

namespace TermScene

section Newlines

variable {before rest : List Char}

theorem columnAfter_eq (before : List Char) : columnAfter before = (lineSoFar before).length + 1 := by
  rw [columnAfter, lineSoFar, List.rtakeWhile, List.length_reverse, Nat.add_comm]

theorem lineStart_add_length (before : List Char) :
    lineStart before + (lineSoFar before).length = before.length := by
  rw [lineStart, ← List.length_append, rdropWhile_append_lineSoFar]

theorem newline_not_mem_lineSoFar (before : List Char) : '\n' ∉ lineSoFar before :=
  fun inside => absurd (List.mem_rtakeWhile_imp inside) (by simp)

theorem lineSoFar_append_of_not_mem {text : List Char} (before : List Char)
    (noNewline : '\n' ∉ text) : lineSoFar (before ++ text) = lineSoFar before ++ text := by
  have inLine : ∀ char ∈ text.reverse, decide (char ≠ '\n') = true := by
    intro char inside
    simpa using ne_of_mem_of_not_mem (List.mem_reverse.mp inside) noNewline
  simp only [lineSoFar, List.rtakeWhile, List.reverse_append,
    List.takeWhile_append_of_pos inLine, List.reverse_reverse]

/-- A text is a part of the line on which it starts exactly if there is no newline in it. -/
theorem length_le_takeWhile_iff (text rest : List Char) :
    text.length ≤ ((text ++ rest).takeWhile (· ≠ '\n')).length ↔ '\n' ∉ text := by
  induction text with
  | nil => simp
  | cons char text ih =>
      by_cases newline : char = '\n'
      · simp [newline]
      · simpa [newline, Ne.symm newline] using ih

/-- The line of a place, cut out of the text. -/
theorem takeWhile_drop_lineStart (before rest : List Char) :
    ((before ++ rest).drop (lineStart before)).takeWhile (· ≠ '\n') =
      lineSoFar before ++ rest.takeWhile (· ≠ '\n') := by
  have split : before ++ rest =
      before.rdropWhile (· ≠ '\n') ++ (lineSoFar before ++ rest) := by
    rw [← List.append_assoc, rdropWhile_append_lineSoFar]
  rw [split, lineStart, List.drop_left, List.takeWhile_append_of_pos]
  intro char inLine
  simpa using ne_of_mem_of_not_mem inLine (newline_not_mem_lineSoFar before)

theorem getElem?_newlineParts_zero (chars : List Char) :
    (newlineParts chars)[0]? = some (chars.takeWhile (· ≠ '\n')) := by
  induction chars with
  | nil => rfl
  | cons char rest ih =>
      by_cases newline : char = '\n'
      · simp [newline, newlineParts]
      · rcases parts : newlineParts rest with _ | ⟨first, others⟩
        · exact absurd parts (partsAt_ne_nil '\n' rest)
        · rw [parts, List.getElem?_cons_zero, Option.some.injEq] at ih
          rw [newlineParts, partsAt_cons_of_ne newline parts]
          simp [newline, ih]

/-- The line of a place, found by its number. -/
theorem getElem?_newlineParts (before rest : List Char) :
    (newlineParts (before ++ rest))[before.count '\n']? =
      some (lineSoFar before ++ rest.takeWhile (· ≠ '\n')) := by
  induction before with
  | nil => simpa using getElem?_newlineParts_zero rest
  | cons char before ih =>
      by_cases newline : char = '\n'
      · rw [newline, List.cons_append, newlineParts, partsAt_separator, ← newlineParts,
          List.count_cons_self, List.getElem?_cons_succ, ih, lineSoFar_newline]
      · rcases parts : newlineParts (before ++ rest) with _ | ⟨first, others⟩
        · exact absurd parts (partsAt_ne_nil '\n' (before ++ rest))
        · rw [List.cons_append, newlineParts, partsAt_cons_of_ne newline parts,
            List.count_cons_of_ne newline]
          rw [parts] at ih
          by_cases more : '\n' ∈ before
          · rcases Nat.exists_eq_add_one.mpr (List.count_pos_iff.mpr more) with ⟨earlier, isEarlier⟩
            rw [isEarlier, List.getElem?_cons_succ] at ih ⊢
            rw [ih, lineSoFar_cons_of_mem more]
          · rw [List.count_eq_zero.mpr more, List.getElem?_cons_zero, Option.some.injEq] at ih ⊢
            rw [ih, lineSoFar_cons_of_not_mem more newline, List.cons_append]

end Newlines

/-- The line breaks in a text, a carriage return with a newline being one. -/
def lineBreaks : List Char → ℕ
  | [] => 0
  | '\r' :: '\n' :: rest => lineBreaks rest + 1
  | char :: rest => if isLineBreak char then lineBreaks rest + 1 else lineBreaks rest

section LineBreaks

variable {char next : Char} {before rest : List Char}

theorem textLines_break (isBreak : isLineBreak char = true)
    (alone : ∀ later, char = '\r' → rest ≠ '\n' :: later) :
    textLines (char :: rest) = [] :: textLines rest := by
  rw [textLines, if_pos isBreak]
  exact alone

theorem textLines_inLine (inLine : isLineBreak char = false) {first : List Char}
    {others : List (List Char)} (lines : textLines rest = first :: others) :
    textLines (char :: rest) = (char :: first) :: others := by
  rw [textLines, inLine, lines]
  · rfl
  · exact fun _ isReturn => absurd isReturn (Editor.ne_return_of_inLine inLine)

theorem textLines_ne_nil {chars : List Char} (nonempty : chars ≠ []) : textLines chars ≠ [] := by
  unfold textLines
  split
  · exact absurd rfl nonempty
  · simp
  · split
    · simp
    · split <;> simp

/-- No line holds what ends lines. -/
theorem inLine_of_mem_textLines {chars line : List Char} (isLine : line ∈ textLines chars) :
    ∀ char ∈ line, isLineBreak char = false := by
  induction chars using textLines.induct generalizing line with
  | case1 => simp at isLine
  | case2 rest ih =>
      rw [textLines, List.mem_cons] at isLine
      rcases isLine with rfl | isLater
      · simp
      · exact ih isLater
  | case3 char rest alone isBreak ih =>
      rw [textLines_break isBreak alone, List.mem_cons] at isLine
      rcases isLine with rfl | isLater
      · simp
      · exact ih isLater
  | case4 char rest alone noBreak first later lines ih =>
      have inLine : isLineBreak char = false := by simpa using noBreak
      rw [textLines_inLine inLine lines, List.mem_cons] at isLine
      rcases isLine with rfl | isLater
      · exact List.forall_mem_cons.mpr ⟨inLine, ih (lines ▸ List.mem_cons_self)⟩
      · exact ih (lines ▸ List.mem_cons_of_mem first isLater)
  | case5 char rest alone noBreak lines ih =>
      have inLine : isLineBreak char = false := by simpa using noBreak
      have isEmpty : rest = [] := by
        by_contra nonempty
        exact textLines_ne_nil nonempty lines
      subst isEmpty
      have isSingle : line = [char] := by simpa [textLines, inLine] using isLine
      simpa [isSingle] using inLine

theorem ne_newline_of_inLine (inLine : isLineBreak char = false) : char ≠ '\n' := by
  rintro rfl
  exact absurd inLine (by decide)

theorem append_ne_newline (inLine : isLineBreak next = false) (after : List Char)
    (alone : ∀ later, char = '\r' → before ≠ '\n' :: later) :
    ∀ later, char = '\r' → before ++ next :: after ≠ '\n' :: later := by
  intro later isReturn shape
  cases before with
  | nil =>
      rw [List.nil_append, List.cons.injEq] at shape
      exact ne_newline_of_inLine inLine shape.1
  | cons first others =>
      rw [List.cons_append, List.cons.injEq] at shape
      exact alone others isReturn (by rw [shape.1])

theorem eq_newline_of_breaks (inLine : isLineBreak next = false) {after : List Char} {offset : ℕ}
    (alone : ∀ later, char = '\r' → before ≠ '\n' :: later) (isBreak : isLineBreak char = true)
    (breaks : BreaksAtNewlines (char :: (before ++ next :: after)) (offset + 1)) : char = '\n' := by
  rcases breaks.1 isBreak with isNewline | ⟨isReturn, paired⟩
  · exact isNewline
  · rcases List.head?_eq_some_iff.mp paired with ⟨later, shape⟩
    exact absurd shape (append_ne_newline inLine after alone later isReturn)

/-- The line that holds a character has, as every line break ends a line, the number of breaks before the
character for the lines before it. -/
theorem length_textLines_append (inLine : isLineBreak next = false) (before after : List Char) :
    (textLines (before ++ next :: after)).length =
      lineBreaks before + (textLines (next :: after)).length := by
  fun_induction lineBreaks before with
  | case1 => simp
  | case2 rest ih =>
      rw [List.cons_append, List.cons_append, textLines, List.length_cons, ih]
      omega
  | case3 char rest alone isBreak ih =>
      rw [List.cons_append, textLines_break isBreak (append_ne_newline inLine after alone),
        List.length_cons, ih]
      omega
  | case4 char rest alone noBreak ih =>
      rcases lines : textLines (rest ++ next :: after) with _ | ⟨first, others⟩
      · exact absurd lines (textLines_ne_nil (by simp))
      · rw [List.cons_append, textLines_inLine (by simpa using noBreak) lines]
        rw [lines] at ih
        exact ih

theorem count_le_lineBreaks (chars : List Char) : chars.count '\n' ≤ lineBreaks chars := by
  fun_induction lineBreaks chars with
  | case1 => simp
  | case2 rest ih => simpa using ih
  | case3 char rest alone isBreak ih =>
      rw [List.count_cons]
      split <;> omega
  | case4 char rest alone noBreak ih =>
      rwa [List.count_cons_of_ne (ne_newline_of_inLine (by simpa using noBreak))]

/-- Both numbers of the line of a character agree exactly if every line break before it is a newline, with
a carriage return before it or without. -/
theorem lineBreaks_eq_count_iff (inLine : isLineBreak next = false) (before after : List Char) :
    lineBreaks before = before.count '\n' ↔
      BreaksAtNewlines (before ++ next :: after) before.length := by
  fun_induction lineBreaks before with
  | case1 => simp [BreaksAtNewlines]
  | case2 rest ih => simp [BreaksAtNewlines, ih]
  | case3 char rest alone isBreak ih =>
      by_cases newline : char = '\n'
      · simp [newline, BreaksAtNewlines, ih]
      · -- Such a break is counted on one side only, and later ones never make up for it.
        have fewer := count_le_lineBreaks rest
        rw [List.count_cons_of_ne newline]
        exact iff_of_false (by omega) fun breaks =>
          newline (eq_newline_of_breaks inLine alone isBreak breaks)
  | case4 char rest alone noBreak ih =>
      rw [List.count_cons_of_ne (ne_newline_of_inLine (by simpa using noBreak)), ih]
      simp [BreaksAtNewlines, noBreak]

/-- Where both numbers agree, the line that has the number of a character begins with what comes before it
on its line and holds it next. -/
theorem lineSoFar_prefix_lineOf (inLine : isLineBreak next = false) (before after : List Char)
    (breaks : BreaksAtNewlines (before ++ next :: after) before.length) :
    lineSoFar before ++ [next] <+: Editor.lineOf (before ++ next :: after) (before.count '\n') := by
  fun_induction lineBreaks before with
  | case1 => simp [Editor.lineOf_cons_zero inLine]
  | case2 rest ih =>
      have isLater := ih breaks.2.2
      simpa [lineSoFar_cons_of_mem] using isLater
  | case3 char rest alone isBreak ih =>
      have isNewline := eq_newline_of_breaks inLine alone isBreak breaks
      have isLater := ih breaks.2
      subst isNewline
      rwa [List.cons_append, List.count_cons_self, Editor.lineOf_break_succ isBreak (by simp),
        lineSoFar_newline]
  | case4 char rest alone noBreak ih =>
      have isInLine : isLineBreak char = false := by simpa using noBreak
      have ordinary := ne_newline_of_inLine isInLine
      have isLater := ih breaks.2
      rw [List.cons_append, List.count_cons_of_ne ordinary]
      by_cases newline : '\n' ∈ rest
      · rcases Nat.exists_eq_add_one.mpr (List.count_pos_iff.mpr newline) with ⟨earlier, isEarlier⟩
        rw [isEarlier] at isLater ⊢
        rwa [Editor.lineOf_cons_succ isInLine, lineSoFar_cons_of_mem newline]
      · rw [List.count_eq_zero.mpr newline] at isLater ⊢
        rw [Editor.lineOf_cons_zero isInLine, lineSoFar_cons_of_not_mem newline ordinary,
          List.cons_append]
        exact (List.prefix_cons_inj char).mpr isLater

/-- Where newlines are the only line breaks, both notions of a line cut a text in the same places. Only the
piece after a newline at the very end is no line. -/
theorem newlineParts_eq_or {chars : List Char}
    (only : ∀ char ∈ chars, isLineBreak char = true → char = '\n') :
    newlineParts chars = textLines chars ∨ newlineParts chars = textLines chars ++ [[]] := by
  induction chars with
  | nil => exact .inr rfl
  | cons char rest ih =>
      rcases List.forall_mem_cons.mp only with ⟨onlyFirst, onlyLater⟩
      have isLater := ih onlyLater
      by_cases newline : char = '\n'
      · rw [newline, newlineParts, partsAt_separator, ← newlineParts, textLines_break (by decide) (by simp)]
        simpa using isLater
      · have inLine : isLineBreak char = false := by simpa using mt onlyFirst newline
        rcases lines : textLines rest with _ | ⟨first, others⟩
        · have isEmpty : rest = [] := not_imp_not.mp textLines_ne_nil lines
          subst isEmpty
          left
          simp [newlineParts, partsAt, newline, textLines, inLine]
        · rw [lines, List.cons_append] at isLater
          rw [textLines_inLine inLine lines, newlineParts, List.cons_append]
          exact isLater.imp (partsAt_cons_of_ne newline) (partsAt_cons_of_ne newline)

theorem getElem?_textLines_of_newlineParts {chars line : List Char} {number : ℕ}
    (only : ∀ char ∈ chars, isLineBreak char = true → char = '\n') (nonempty : line ≠ [])
    (isPart : (newlineParts chars)[number]? = some line) : (textLines chars)[number]? = some line := by
  rcases newlineParts_eq_or only with same | same
  · rwa [same] at isPart
  · rw [same, List.getElem?_append] at isPart
    split at isPart
    · exact isPart
    · have isEmpty := List.mem_of_getElem? isPart
      exact absurd (List.mem_singleton.mp isEmpty) nonempty

end LineBreaks

end TermScene
