import TermScene.Proofs.Token.Layout

/-!
# Fronts of a text

What a text is read as does not depend on where the text is cut off, as long as the cut is behind what was
read: the leading lexeme of a text is that of every front of the text that holds it, and a text that
begins no lexeme has no front that begins one. The text that is passed before reading stops is therefore
read to its end by itself, and no longer front is.
-/

namespace TermScene

namespace Lexeme

variable {chars rest part : List Char}

theorem mem_head?_of_front (front : part <+: rest) : ∀ char ∈ part.head?, char ∈ rest.head? := by
  rcases front with ⟨behind, rfl⟩
  cases part with
  | nil => simp
  | cons char later => simp

theorem Ends.of_front {kind : TokenKind} (ends : Ends kind rest) (front : part <+: rest) :
    Ends kind part := by
  have next := mem_head?_of_front front
  unfold Ends at ends ⊢
  split
  · exact fun char isNext => ends char (next char isNext)
  · exact fun char isNext => ends char (next char isNext)
  · exact fun char isNext => ends char (next char isNext)
  · exact fun char isNext => ends char (next char isNext)
  · trivial

theorem EndsNumeral.of_front (ends : EndsNumeral chars rest) (front : part <+: rest) :
    EndsNumeral chars part where
  noDigit char isNext := ends.noDigit char (mem_head?_of_front front char isNext)
  noFraction noPoint digit later shape := by
    rcases front with ⟨behind, rfl⟩
    exact ends.noFraction noPoint digit (later ++ behind) (by simp [shape])

/-- A quote that opens no string is closed nowhere. -/
theorem string?_eq_none_iff : string? chars = none ↔ '"' ∉ chars := by
  have isRun : (run .string (fun char => decide (char ≠ '"')) chars).rest = [] ↔ '"' ∉ chars := by
    simp only [run, List.dropWhile_eq_nil_iff, decide_eq_true_eq]
    exact ⟨fun all inside => all _ inside rfl, fun noQuote char inside isQuote => noQuote (isQuote ▸ inside)⟩
  rw [← isRun]
  simp only [string?]
  split
  · rename_i quote later found
    rw [found]
    simp
  · rename_i found
    rw [found]
    simp

/-- A text that begins no lexeme has no front that begins one. -/
theorem first?_eq_none_of_front (nothing : first? chars = none) (front : part <+: chars) :
    first? part = none := by
  rcases part with _ | ⟨char, part⟩
  · rfl
  rcases front with ⟨behind, rfl⟩
  -- But for strings, comments and arrows the first character alone decides.
  simp only [List.cons_append, first?] at nothing ⊢
  split at nothing
  · simp at nothing
  · rename_i noDigit
    rw [if_neg noDigit]
    split at nothing
    · rename_i isQuote
      rw [if_pos isQuote]
      rw [string?_eq_none_iff] at nothing ⊢
      exact fun inside => nothing (List.mem_append_left behind inside)
    · rename_i noQuote
      rw [if_neg noQuote]
      split at nothing
      · simp at nothing
      · rename_i noLetter
        rw [if_neg noLetter]
        split at nothing
        · simp at nothing
        · split at nothing
          · simp at nothing
          · rename_i noBlank
            rw [if_neg noBlank]
            split at nothing
            · simp at nothing
            · simp at nothing
            · rename_i noComment noArrow
              split
              · exact absurd rfl (noComment _ rfl)
              · exact absurd rfl (noArrow _ rfl)
              · rfl

/-- The leading lexeme of a text is that of every front of the text that holds it. -/
theorem first?_of_front {lexeme : Lexeme} (found : first? chars = some lexeme)
    (front : part <+: lexeme.rest) :
    first? (lexeme.chars ++ part) = some ⟨lexeme.kind, lexeme.chars, part⟩ := by
  have full := first?_matches found
  by_cases isNumber : lexeme.kind = .number
  · rw [isNumber] at full ⊢
    cases full with
    | number isNumeral =>
        exact first?_append_numeral isNumeral ((first?_endsNumeral found isNumber).of_front front)
  · exact first?_append_eq full ((first?_ends found isNumber).of_front front)

end Lexeme

/-- Reading a text passes over some front of it. That front is passed whatever part of what is left
stands behind it. -/
theorem scan_of_front (filename : Option String) (cursor : Cursor) (chars : List Char) :
    ∃ passed, chars = passed ++ (scan filename cursor chars).rest ∧
      (scan filename cursor chars).cursor = cursor.advance passed ∧
      ∀ name place part, part <+: (scan filename cursor chars).rest →
        (scan name place (passed ++ part)).rest = part := by
  fun_induction scan filename cursor chars with
  | case1 cursor chars nothing =>
      refine ⟨[], rfl, rfl, fun name place part front => ?_⟩
      rw [List.nil_append, scan_eq_of_none (Lexeme.first?_eq_none_of_front nothing front)]
  | case2 cursor chars lexeme found later kept | case3 cursor chars lexeme found later skipped =>
      rename_i ih
      rcases ih with ⟨passed, split, place, fronts⟩
      refine ⟨lexeme.chars ++ passed, ?_, ?_, fun name place part front => ?_⟩
      · rw [List.append_assoc, ← split, (Lexeme.first?_split found).1]
      · rw [Cursor.advance_append, ← place]
      · have behind : passed ++ part <+: lexeme.rest := by
          rw [split]
          exact (List.prefix_append_right_inj passed).mpr front
        rw [List.append_assoc, scan_eq_of_first? (Lexeme.first?_of_front found behind)]
        split <;> exact fronts _ _ part front

end TermScene
