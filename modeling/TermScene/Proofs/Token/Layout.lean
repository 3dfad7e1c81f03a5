import TermScene.Proofs.Token.Tiling

/-!
# Layouts of tokens

A layout of some pieces, each a kind and a text of that kind, is a text with these pieces in order and
spacing before, between and after them. Whatever the spacing is, as long as there is some between any
two pieces, reading the tokens of a layout gives its pieces back: no lexeme runs into its neighbour,
and none swallows part of it.
-/

namespace TermScene

/-- A layout of pieces. Spacing may be empty before the first piece and behind the last one, but not
between two. -/
inductive LaidOut : (atStart : Bool) → List (TokenKind × String) → List Char → Prop where
  | spacing {atStart : Bool} {gap : List Char} (isSpacing : Spacing true gap) :
      LaidOut atStart [] gap
  | piece {atStart : Bool} {gap rest : List Char} {kind : TokenKind} {text : String}
      {later : List (TokenKind × String)} (isSpacing : Spacing false gap)
      (apart : atStart = false → gap ≠ []) (kept : kind.IsEmitted)
      (full : Matches kind text.toList) (more : LaidOut false later rest) :
      LaidOut atStart ((kind, text) :: later) (gap ++ text.toList ++ rest)

/-- The kind and the text of a token. -/
def Token.piece (token : Token) : TokenKind × String := (token.kind, token.text)

section Scans

variable {filename : Option String} {cursor : Cursor} {chars rest : List Char} {kind : TokenKind}

theorem scan_eq_of_first? {lexeme : Lexeme} (found : Lexeme.first? chars = some lexeme) :
    scan filename cursor chars =
      let later := scan filename (cursor.advance lexeme.chars) lexeme.rest
      if lexeme.kind.isKept then
        { later with
          tokens :=
            ⟨lexeme.kind, String.ofList lexeme.chars, some (cursor.location filename)⟩
              :: later.tokens }
      else later := by
  rw [scan]
  split
  · simp_all
  · simp_all

theorem scan_eq_of_none (nothing : Lexeme.first? chars = none) :
    scan filename cursor chars = ⟨[], cursor, chars⟩ := by
  rw [scan]
  split
  · rfl
  · rename_i found
    rw [nothing] at found
    simp at found

/-- Reading stops where no lexeme begins. -/
theorem scan_stops (filename : Option String) (cursor : Cursor) (chars : List Char) :
    Lexeme.first? (scan filename cursor chars).rest = none := by
  fun_induction scan filename cursor chars with
  | case1 cursor chars nothing => exact nothing
  | case2 cursor chars lexeme found later kept ih => exact ih
  | case3 cursor chars lexeme found later skipped ih => exact ih

theorem scan_append_of_kept (full : Matches kind chars) (ends : Lexeme.Ends kind rest)
    (kept : kind.isKept = true) :
    scan filename cursor (chars ++ rest) =
      { scan filename (cursor.advance chars) rest with
        tokens := ⟨kind, String.ofList chars, some (cursor.location filename)⟩
          :: (scan filename (cursor.advance chars) rest).tokens } := by
  rw [scan_eq_of_first? (Lexeme.first?_append_eq full ends)]
  simp [kept]

theorem scan_append_of_skipped (full : Matches kind chars) (ends : Lexeme.Ends kind rest)
    (skipped : kind.isKept = false) :
    scan filename cursor (chars ++ rest) = scan filename (cursor.advance chars) rest := by
  rw [scan_eq_of_first? (Lexeme.first?_append_eq full ends)]
  simp [skipped]

/-- Blanks are passed over in runs, but this is the same as one by one. -/
theorem scan_blank {char : Char} (blank : isBlank char = true) :
    scan filename cursor (char :: rest) = scan filename (cursor.step char) rest := by
  have split := List.takeWhile_append_dropWhile (p := isBlank) (l := rest)
  have inRun : ∀ later ∈ rest.takeWhile isBlank, isBlank later = true := fun _ => List.mem_takeWhile_imp
  have ends : Lexeme.Ends .whitespace (rest.dropWhile isBlank) := by
    intro next isNext
    have stops := List.head?_dropWhile_not isBlank rest
    rw [isNext] at stops
    exact stops
  generalize rest.takeWhile isBlank = blanks at split inRun
  generalize rest.dropWhile isBlank = others at split ends
  subst split
  have whole : Matches .whitespace (char :: blanks) := by
    apply Matches.whitespace (by simp)
    intro later inside
    rcases List.mem_cons.mp inside with rfl | inBlanks
    · exact blank
    · exact inRun later inBlanks
  rw [← List.cons_append, scan_append_of_skipped whole ends rfl, Cursor.advance_cons]
  rcases blanks with _ | ⟨next, blanks⟩
  · rfl
  · exact (scan_append_of_skipped (.whitespace (by simp) inRun) ends rfl).symm

theorem scan_spacing_append {gap : List Char} (isSpacing : Spacing false gap) :
    scan filename cursor (gap ++ rest) = scan filename (cursor.advance gap) rest := by
  induction isSpacing generalizing cursor with
  | nil => rfl
  | blank isBlank more ih =>
      rw [List.cons_append, scan_blank isBlank, ih, Cursor.advance_cons]
  | @comment body gap line more ih =>
      rw [List.append_assoc, scan_append_of_skipped (.comment line) (by simp [Lexeme.Ends]) rfl,
        List.cons_append, scan_blank isBlank_newline, ih, Cursor.advance_append,
        Cursor.advance_cons _ '\n']
  | lastComment isLast line => simp at isLast

theorem scan_spacing {gap : List Char} (isSpacing : Spacing true gap) :
    scan filename cursor gap = ⟨[], cursor.advance gap, []⟩ := by
  have atEnd : ∀ cursor, scan filename cursor [] = ⟨[], cursor, []⟩ := by
    intro cursor
    rw [scan]
    rfl
  induction isSpacing generalizing cursor with
  | nil => exact atEnd cursor
  | blank isBlank more ih => rw [scan_blank isBlank, ih, Cursor.advance_cons]
  | @comment body gap line more ih =>
      rw [scan_append_of_skipped (.comment line) (by simp [Lexeme.Ends]) rfl,
        scan_blank isBlank_newline, ih, Cursor.advance_append, Cursor.advance_cons _ '\n']
  | @lastComment body isLast line =>
      rw [← List.append_nil ('/' :: '/' :: body),
        scan_append_of_skipped (.comment line) (by simp [Lexeme.Ends]) rfl, atEnd,
        List.append_nil]

end Scans

section Sources

theorem Lexer.tokenize_of_end {lexer : Lexer}
    (atEnd : (scan lexer.filename lexer.cursor lexer.rest).rest = []) :
    lexer.tokenize =
      (.ok (scan lexer.filename lexer.cursor lexer.rest).tokens,
        { lexer with
          cursor := (scan lexer.filename lexer.cursor lexer.rest).cursor
          rest := []
          tokens := (scan lexer.filename lexer.cursor lexer.rest).tokens }) := by
  simp only [tokenize, atEnd]

theorem Lexer.tokenize_of_stray {lexer : Lexer} {char : Char} {later : List Char}
    (stray : (scan lexer.filename lexer.cursor lexer.rest).rest = char :: later) :
    let stuck : Lexer :=
      { lexer with
        cursor := (scan lexer.filename lexer.cursor lexer.rest).cursor
        rest := char :: later }
    lexer.tokenize = (.error (stuck.unexpected char), stuck) := by
  simp only [tokenize, stray]

variable {source : String} {filename : Option String}

theorem tokensOf_of_end (atEnd : (scan filename .start source.toList).rest = []) :
    tokensOf source filename = .ok (scan filename .start source.toList).tokens :=
  congrArg Prod.fst (@Lexer.tokenize_of_end (.ofSource source filename) atEnd)

theorem tokensOf_of_stray {char : Char} {later : List Char}
    (stray : (scan filename .start source.toList).rest = char :: later) :
    ∃ line, tokensOf source filename = .error (.strayCharacter (String.singleton char)
      (some ((scan filename .start source.toList).cursor.location filename)) line) :=
  ⟨_, congrArg Prod.fst (@Lexer.tokenize_of_stray (.ofSource source filename) _ _ stray)⟩

theorem tokensOf_empty : tokensOf "" filename = .ok [] := by
  have nothing : scan filename .start "".toList = ⟨[], .start, []⟩ := scan_eq_of_none rfl
  rw [tokensOf_of_end (by rw [nothing]), nothing]

end Sources

theorem Spacing.first_of_ne_nil {atEnd : Bool} {gap : List Char} (isSpacing : Spacing atEnd gap)
    (nonempty : gap ≠ []) (rest : List Char) :
    ∀ char ∈ (gap ++ rest).head?, isBlank char = true ∨ char = '/' := by
  intro char isFirst
  cases isSpacing with
  | nil => exact absurd rfl nonempty
  | blank isBlank more =>
      simp only [List.cons_append, List.head?_cons, Option.mem_def, Option.some.injEq] at isFirst
      exact .inl (isFirst ▸ isBlank)
  | comment line more =>
      simp only [List.cons_append, List.head?_cons, Option.mem_def, Option.some.injEq] at isFirst
      exact .inr isFirst.symm
  | lastComment isLast line =>
      simp only [List.cons_append, List.head?_cons, Option.mem_def, Option.some.injEq] at isFirst
      exact .inr isFirst.symm

namespace LaidOut

theorem first_of_not_atStart {pieces : List (TokenKind × String)} {rest : List Char}
    (laid : LaidOut false pieces rest) : ∀ char ∈ rest.head?, isBlank char = true ∨ char = '/' := by
  cases laid with
  | spacing isSpacing =>
      rcases rest with _ | ⟨first, later⟩
      · simp
      · simpa using isSpacing.first_of_ne_nil (by simp) []
  | piece isSpacing apart kept full more =>
      rw [List.append_assoc]
      exact isSpacing.first_of_ne_nil (apart rfl) _

/-- No piece that is kept is continued by spacing. -/
theorem ends {pieces : List (TokenKind × String)} {rest : List Char}
    (laid : LaidOut false pieces rest) {kind : TokenKind} (kept : kind.IsEmitted) :
    Lexeme.Ends kind rest := by
  have notPart : ∀ char, isBlank char = true ∨ char = '/' →
      char.isDigit = false ∧ char.isAlpha = false ∧ char ≠ '.' ∧ char ≠ '_' := by
    rintro char (blank | rfl)
    · refine ⟨isDigit_of_isBlank blank, isAlpha_of_isBlank blank, ?_, ?_⟩
      · rintro rfl
        exact absurd blank (by decide)
      · rintro rfl
        exact absurd blank (by decide)
    · decide
  unfold Lexeme.Ends
  split
  · intro char isFirst
    have := notPart char (laid.first_of_not_atStart char isFirst)
    exact ⟨this.1, this.2.2.1⟩
  · intro char isFirst
    have := notPart char (laid.first_of_not_atStart char isFirst)
    simp [Lexeme.continuesIdentifier, Char.isAlphanum, this]
  · exact absurd kept.1 (by decide)
  · exact absurd kept.1 (by decide)
  · trivial

/-- Reading the tokens of a layout gives its pieces back. -/
theorem scan_pieces {atStart : Bool} {pieces : List (TokenKind × String)} {chars : List Char}
    (laid : LaidOut atStart pieces chars) (filename : Option String) (cursor : Cursor) :
    (scan filename cursor chars).rest = [] ∧
      (scan filename cursor chars).tokens.map Token.piece = pieces := by
  induction laid generalizing cursor with
  | spacing isSpacing => simp [scan_spacing isSpacing]
  | @piece atStart gap rest kind text later isSpacing apart kept full more ih =>
      have ⟨atEnd, pieces⟩ := ih ((cursor.advance gap).advance text.toList)
      rw [List.append_assoc, scan_spacing_append isSpacing,
        scan_append_of_kept full (more.ends kept) kept.1]
      exact ⟨atEnd, by simp [Token.piece, ← pieces]⟩

theorem tokensOf_pieces {pieces : List (TokenKind × String)} {source : String}
    (laid : LaidOut true pieces source.toList) (filename : Option String) :
    ∃ tokens, tokensOf source filename = .ok tokens ∧ tokens.map Token.piece = pieces := by
  have ⟨atEnd, found⟩ := laid.scan_pieces filename .start
  refine ⟨(scan filename .start source.toList).tokens, ?_, found⟩
  simp [tokensOf, Lexer.tokenize, Lexer.ofSource, atEnd]

end LaidOut

end TermScene
