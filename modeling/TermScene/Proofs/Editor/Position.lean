import TermScene.Editor.Range
import TermScene.Proofs.Token.Tiling

/-!
# The order of positions

Positions are ordered by line and then by character. An editor's position of a place is the one that the
text before the place gives, the end of a token included, so that a longer text before a place means a
later position. The tokens that tile a text therefore come in the order of their positions, each of them
ending before the next begins.
-/

namespace TermScene

namespace Position

instance : LT Position :=
  ⟨fun left right =>
    left.line < right.line ∨ left.line = right.line ∧ left.character < right.character⟩

instance : LE Position := ⟨fun left right => left < right ∨ left = right⟩

theorem lt_def {left right : Position} :
    left < right ↔
      left.line < right.line ∨ left.line = right.line ∧ left.character < right.character :=
  Iff.rfl

theorem lt_trans {left middle right : Position} (first : left < middle) (second : middle < right) :
    left < right := by
  rw [lt_def] at *
  omega

theorem le_of_lt {left right : Position} (less : left < right) : left ≤ right := .inl less

theorem lt_of_lt_of_le {left middle right : Position} (first : left < middle)
    (second : middle ≤ right) : left < right := by
  rcases second with second | rfl
  · exact lt_trans first second
  · exact first

theorem lt_of_le_of_lt {left middle right : Position} (first : left ≤ middle)
    (second : middle < right) : left < right := by
  rcases first with first | rfl
  · exact lt_trans first second
  · exact second

theorem le_trans {left middle right : Position} (first : left ≤ middle) (second : middle ≤ right) :
    left ≤ right := by
  rcases first with first | rfl
  · exact le_of_lt (lt_of_lt_of_le first second)
  · exact second

/-- The position just after a text. -/
def after (before : List Char) : Position := ofLocation (placeAfter before none)

theorem after_lt_append_singleton (before : List Char) (char : Char) :
    after before < after (before ++ [char]) := by
  rw [lt_def]
  simp only [after, ofLocation, placeAfter, lineAfter, columnAfter, List.count_append,
    List.reverse_append, List.reverse_singleton, List.singleton_append]
  by_cases newline : char = '\n'
  · left
    simp [newline]
  · right
    simp [newline]

theorem after_le_append (before more : List Char) : after before ≤ after (before ++ more) := by
  induction more using List.reverseRecOn with
  | nil => right; simp
  | append_singleton more char ih =>
      rw [← List.append_assoc]
      exact le_trans ih (le_of_lt (after_lt_append_singleton _ char))

theorem after_lt_append (before : List Char) {more : List Char} (nonempty : more ≠ []) :
    after before < after (before ++ more) := by
  rcases more with _ | ⟨char, more⟩
  · exact absurd rfl nonempty
  · rw [List.append_cons]
    exact lt_of_lt_of_le (after_lt_append_singleton before char) (after_le_append _ more)

theorem ofLocation_cursor (before : List Char) (filename : Option String) :
    ofLocation ((Cursor.start.advance before).location filename) = after before := by
  rw [Cursor.start_advance_location]
  rfl

/-- A text without a newline is its own only piece. -/
theorem eq_of_newlineParts_singleton {chars part : List Char} (parts : newlineParts chars = [part]) :
    part = chars := by
  induction chars generalizing part with
  | nil => simpa [newlineParts, partsAt] using parts.symm
  | cons char rest ih =>
      rcases restParts : newlineParts rest with _ | ⟨next, others⟩
      · exact absurd restParts (partsAt_ne_nil _ _)
      by_cases newline : char = '\n'
      · subst newline
        rw [newlineParts, partsAt_separator, ← newlineParts, restParts] at parts
        simp at parts
      · rw [newlineParts, partsAt_cons_of_ne newline restParts] at parts
        simp only [List.cons.injEq] at parts
        rcases parts with ⟨rfl, rfl⟩
        rw [ih restParts]

theorem past_of_newlineParts {text : String} {part : List Char} {later : List (List Char)}
    (start : Position) (parts : newlineParts text.toList = part :: later) :
    start.past text =
      ⟨start.line + later.length,
        match later.getLast? with
        | none => start.character + text.length
        | some last => last.length⟩ := by
  induction later using List.reverseRecOn with
  | nil => simp [past, parts]
  | append_singleton middle last _ =>
      have reversed : (newlineParts text.toList).reverse = last :: (part :: middle).reverse := by
        simp [parts]
      rcases earlier : (part :: middle).reverse with _ | ⟨before, others⟩
      · simp at earlier
      have length : others.length + 1 = middle.length + 1 := by
        simpa using (congrArg List.length earlier).symm
      rw [earlier] at reversed
      simp only [past, reversed, List.length_cons, List.length_append, List.length_nil,
        List.getLast?_concat, length]

/-- The end of a text that starts in a place is found from its lines. -/
theorem past_after (before : List Char) (text : String) :
    (after before).past text = after (before ++ text.toList) := by
  rcases parts : newlineParts text.toList with _ | ⟨part, later⟩
  · exact absurd parts (partsAt_ne_nil _ _)
  have advanced := (Cursor.start.advance before).advance_eq_of_newlineParts parts
  rw [past_of_newlineParts _ parts, ← ofLocation_cursor _ none, ← ofLocation_cursor _ none,
    Cursor.advance_append, advanced]
  cases isLast : later.getLast? with
  | none =>
      have single := eq_of_newlineParts_singleton (List.getLast?_eq_none_iff.mp isLast ▸ parts)
      have length : text.length = part.length := by rw [single, String.length_toList]
      simp only [ofLocation, Cursor.location, mk.injEq]
      omega
  | some last =>
      simp only [ofLocation, Cursor.location, mk.injEq]
      omega

end Position

/-- A token that runs through a stretch of a document and is not empty. -/
structure Token.Covers (token : Token) (range : TextRange) : Prop where
  start : token.startPosition = some range.start
  stop : token.stopPosition = some range.stop
  nonempty : range.start < range.stop

/-- Tokens in the order in which they stand in a document, each ending before the next begins. -/
structure InOrder (tokens : List Token) : Prop where
  covers : ∀ token ∈ tokens, ∃ range, token.Covers range
  apart : tokens.Pairwise fun earlier later => ∀ left right,
    earlier.Covers left → later.Covers right → left.stop ≤ right.start
  starts : tokens.Pairwise fun earlier later => earlier.start < later.start

namespace Token

variable {token : Token} {kind : TokenKind} {text : String} {before : List Char}
  {filename : Option String}

theorem Covers.unique {left right : TextRange} (first : token.Covers left)
    (second : token.Covers right) : left = right := by
  rcases left with ⟨start, stop⟩
  rcases right with ⟨start', stop'⟩
  have sameStart : start = start' := by simpa [first.start] using second.start
  have sameStop : stop = stop' := by simpa [first.stop] using second.stop
  rw [sameStart, sameStop]

theorem covers_placed (nonempty : text.toList ≠ []) :
    Covers ⟨kind, text, some (placeAfter before filename)⟩
      ⟨.after before, .after (before ++ text.toList)⟩ := by
  refine ⟨rfl, ?_, Position.after_lt_append before nonempty⟩
  rw [stopPosition]
  exact congrArg some (Position.past_after before text)

end Token

namespace Tiled

variable {filename : Option String} {before chars : List Char} {tokens : List Token}

theorem covers (tiled : Tiled filename before chars tokens) :
    ∀ token ∈ tokens, ∃ range, token.Covers range ∧ Position.after before ≤ range.start := by
  induction tiled with
  | spacing isSpacing => simp
  | @token before gap chars rest kind tokens isSpacing kept full more ih =>
      intro token isToken
      rcases List.mem_cons.mp isToken with rfl | isLater
      · have nonempty : (String.ofList chars).toList ≠ [] := by simpa using full.ne_nil
        exact ⟨_, Token.covers_placed nonempty, Position.after_le_append before gap⟩
      · rcases ih token isLater with ⟨range, covers, past⟩
        refine ⟨range, covers, ?_⟩
        rw [List.append_assoc] at past
        exact Position.le_trans (Position.after_le_append before (gap ++ chars)) past

theorem apart (tiled : Tiled filename before chars tokens) :
    tokens.Pairwise fun earlier later => ∀ left right,
      earlier.Covers left → later.Covers right → left.stop ≤ right.start := by
  induction tiled with
  | spacing isSpacing => exact .nil
  | @token before gap chars rest kind tokens isSpacing kept full more ih =>
      refine .cons ?_ ih
      intro later isLater left right isLeft isRight
      have nonempty : (String.ofList chars).toList ≠ [] := by simpa using full.ne_nil
      rcases more.covers later isLater with ⟨range, covers, past⟩
      rw [isLeft.unique (Token.covers_placed nonempty), isRight.unique covers]
      simpa using past

theorem inOrder (tiled : Tiled filename before chars tokens) : InOrder tokens where
  covers token isToken :=
    let ⟨range, covers, _⟩ := tiled.covers token isToken
    ⟨range, covers⟩
  apart := tiled.apart
  starts := tiled.ordered.imp And.left

end Tiled

theorem inOrder_of_tokensOf {source : String} {filename : Option String} {tokens : List Token}
    (read : tokensOf source filename = .ok tokens) : InOrder tokens :=
  (tiled_of_tokensOf read).inOrder

end TermScene
