import Mathlib.Data.List.Forall2
import TermScene.Proofs.Token.Layout

/-!
# Carriage returns before newlines

A text in which every carriage return stands before a newline is read as the same text without them,
token by token. A carriage return is a blank, may stand in a comment or a string, and ends every other
lexeme as the newline behind it does. The places have the same lines and columns, too: the columns differ
only between a carriage return and its newline, and no token starts there.
-/

namespace TermScene

/-- Every carriage return stands just before a newline. -/
def PairedReturns : List Char → Prop
  | [] => True
  | char :: rest => (char = '\r' → rest.head? = some '\n') ∧ PairedReturns rest

instance decidablePairedReturns : (chars : List Char) → Decidable (PairedReturns chars)
  | [] => .isTrue trivial
  | char :: rest =>
      have := decidablePairedReturns rest
      inferInstanceAs (Decidable ((char = '\r' → rest.head? = some '\n') ∧ PairedReturns rest))

/-- A text with every carriage return that stands before a newline left out. -/
def joinReturns : List Char → List Char
  | [] => []
  | '\r' :: '\n' :: rest => '\n' :: joinReturns rest
  | char :: rest => char :: joinReturns rest

/-- A text with every carriage return left out. -/
def withoutReturns (chars : List Char) : List Char := chars.filter (· ≠ '\r')

section WithoutReturns

variable {char : Char} {first rest : List Char}

@[simp]
theorem withoutReturns_nil : withoutReturns [] = [] := rfl

@[simp]
theorem withoutReturns_return : withoutReturns ('\r' :: rest) = withoutReturns rest := rfl

theorem withoutReturns_cons (other : char ≠ '\r') :
    withoutReturns (char :: rest) = char :: withoutReturns rest :=
  List.filter_cons_of_pos (by simpa using other)

@[simp]
theorem withoutReturns_newline :
    withoutReturns ('\n' :: rest) = '\n' :: withoutReturns rest := rfl

theorem withoutReturns_append :
    withoutReturns (first ++ rest) = withoutReturns first ++ withoutReturns rest :=
  List.filter_append ..

theorem withoutReturns_eq_self (noReturn : '\r' ∉ rest) : withoutReturns rest = rest := by
  apply List.filter_eq_self.mpr
  intro char inside
  rw [decide_eq_true_iff]
  rintro rfl
  exact noReturn inside

end WithoutReturns

namespace PairedReturns

variable {chars first rest : List Char}

theorem newline (paired : PairedReturns ('\r' :: rest)) : ∃ later, rest = '\n' :: later := by
  rcases rest with _ | ⟨next, later⟩
  · exact absurd (paired.1 rfl) (by simp)
  · have isNewline : next = '\n' := by simpa using paired.1 rfl
    exact ⟨later, by rw [isNewline]⟩

theorem of_append (paired : PairedReturns (first ++ rest)) : PairedReturns rest := by
  induction first with
  | nil => exact paired
  | cons char later ih => exact ih paired.2

theorem front (paired : PairedReturns (first ++ rest)) (ends : first.getLast? ≠ some '\r') :
    PairedReturns first := by
  induction first with
  | nil => trivial
  | cons char later ih =>
      rcases later with _ | ⟨next, later⟩
      · exact ⟨fun isReturn => absurd (by simp [isReturn]) ends, trivial⟩
      · exact ⟨paired.1, ih paired.2 (by simpa using ends)⟩

/-- Leaving out other characters than newlines keeps returns and newlines together. -/
theorem filter (paired : PairedReturns chars) {keeps : Char → Bool} (newline : keeps '\n' = true) :
    PairedReturns (chars.filter keeps) := by
  induction chars with
  | nil => trivial
  | cons char rest ih =>
      by_cases kept : keeps char = true
      · rw [List.filter_cons_of_pos kept]
        refine ⟨?_, ih paired.2⟩
        rintro rfl
        rcases paired.newline with ⟨later, rfl⟩
        rw [List.filter_cons_of_pos newline, List.head?_cons]
      · rw [List.filter_cons_of_neg kept]
        exact ih paired.2

/-- Without its returns, such a text begins with a character other than a newline only if it does so
itself. -/
theorem eq_cons (paired : PairedReturns chars) {char : Char}
    (shape : withoutReturns chars = char :: rest) (other : char ≠ '\n') :
    ∃ later, chars = char :: later ∧ withoutReturns later = rest := by
  rcases chars with _ | ⟨next, later⟩
  · simp at shape
  by_cases isReturn : next = '\r'
  · subst isReturn
    rcases paired.newline with ⟨later, rfl⟩
    simp only [withoutReturns_return, withoutReturns_newline, List.cons.injEq] at shape
    exact absurd shape.1.symm other
  · rw [withoutReturns_cons isReturn, List.cons.injEq] at shape
    exact ⟨later, by rw [shape.1], shape.2⟩

/-- In such a text, leaving out every return is leaving out those before newlines. -/
theorem joinReturns_eq (paired : PairedReturns chars) : joinReturns chars = withoutReturns chars := by
  fun_induction joinReturns chars with
  | case1 => rfl
  | case2 rest ih => rw [ih paired.2.2, withoutReturns_return, withoutReturns_newline]
  | case3 char rest noPair ih =>
      have other : char ≠ '\r' := by
        rintro rfl
        rcases paired.newline with ⟨later, rfl⟩
        exact noPair later rfl rfl
      rw [ih paired.2, withoutReturns_cons other]

/-- Nor is there a carriage return which would be read as a newline of its own. -/
theorem withNewlines_eq (paired : PairedReturns chars) :
    withNewlines chars = withoutReturns chars := by
  fun_induction withNewlines chars with
  | case1 => rfl
  | case2 rest ih => rw [ih paired.2.2, withoutReturns_return, withoutReturns_newline]
  | case3 rest noPair ih =>
      rcases paired.newline with ⟨later, rfl⟩
      exact absurd rfl (noPair later)
  | case4 char rest noPair noReturn ih =>
      have other : char ≠ '\r' := by
        rintro rfl
        exact noReturn rfl
      rw [ih paired.2, withoutReturns_cons other]

end PairedReturns

namespace Lexeme

/-- A lexeme with every carriage return left out, from it and from the text behind it. -/
def withoutReturns (lexeme : Lexeme) : Lexeme :=
  ⟨lexeme.kind, TermScene.withoutReturns lexeme.chars, TermScene.withoutReturns lexeme.rest⟩

section Runs

variable {chars : List Char}

/-- A run that a newline cannot belong to unless a return can: whether a return belongs to it or ends
it, the newline behind it does so instead. -/
theorem run_withoutReturns (kind : TokenKind) (member : Char → Bool) (paired : PairedReturns chars)
    (newline : member '\n' = true → member '\r' = true) :
    run kind member (TermScene.withoutReturns chars) = (run kind member chars).withoutReturns := by
  induction chars with
  | nil => rfl
  | cons char rest ih =>
      have others := ih paired.2
      simp only [run, withoutReturns, mk.injEq, true_and] at others ⊢
      by_cases isReturn : char = '\r'
      · subst isReturn
        rcases paired.newline with ⟨later, rfl⟩
        cases inRun : member '\r' with
        | true => simpa [inRun] using others
        | false =>
            have notNewline : member '\n' = false := by
              by_contra isMember
              exact absurd (newline (by simpa using isMember)) (by simp [inRun])
            simp [inRun, notNewline]
      · cases inRun : member char <;> simp [withoutReturns_cons isReturn, inRun, others]

theorem paired_run (kind : TokenKind) (member : Char → Bool) (paired : PairedReturns chars) :
    PairedReturns (run kind member chars).rest := by
  rw [← run_append kind member chars] at paired
  exact paired.of_append

theorem numeral_of_fraction {digits later : List Char} {digit : Char}
    (whole : run .number Char.isDigit chars = ⟨.number, digits, '.' :: digit :: later⟩)
    (isDigit : digit.isDigit = true) :
    numeral chars =
      let fraction := run .number Char.isDigit (digit :: later)
      ⟨.number, digits ++ '.' :: fraction.chars, fraction.rest⟩ := by
  simp [numeral, whole, isDigit]

theorem numeral_of_whole {whole : Lexeme} (isWhole : run .number Char.isDigit chars = whole)
    (noFraction : ∀ digit later, whole.rest = '.' :: digit :: later → digit.isDigit = false) :
    numeral chars = whole := by
  unfold numeral
  rw [isWhole]
  simp only
  split
  · rename_i digit later shape
    rw [noFraction digit later shape, if_neg (by decide)]
  · rfl

theorem numeral_withoutReturns (paired : PairedReturns chars) :
    numeral (TermScene.withoutReturns chars) = (numeral chars).withoutReturns := by
  have whole := run_withoutReturns .number Char.isDigit paired (by decide)
  have pairedBehind := paired_run .number Char.isDigit paired
  by_cases fraction : ∃ digit later, digit.isDigit = true ∧
      (run .number Char.isDigit chars).rest = '.' :: digit :: later
  · rcases fraction with ⟨digit, later, isDigit, shape⟩
    have other : digit ≠ '\r' := by
      rintro rfl
      exact absurd isDigit (by decide)
    rw [shape] at pairedBehind
    have decimals := run_withoutReturns .number Char.isDigit pairedBehind.2 (by decide)
    rw [withoutReturns_cons other] at decimals
    have wholePart : run .number Char.isDigit chars =
        ⟨.number, (run .number Char.isDigit chars).chars, '.' :: digit :: later⟩ := by
      rw [← shape]
      rfl
    have wholePart' := whole
    rw [wholePart, withoutReturns, withoutReturns_cons (by decide), withoutReturns_cons other]
      at wholePart'
    rw [numeral_of_fraction wholePart isDigit, numeral_of_fraction wholePart' isDigit]
    simp [decimals, withoutReturns, withoutReturns_append, withoutReturns_cons]
  · -- What stands behind the digits is no point with a digit, neither with the returns nor without.
    rw [numeral_of_whole whole, @numeral_of_whole chars _ rfl]
    · intro digit later shape
      by_contra isDigit
      exact fraction ⟨digit, later, by simpa using isDigit, shape⟩
    · intro digit later shape
      rcases pairedBehind.eq_cons shape (by decide) with ⟨behind, isPoint, behindShape⟩
      by_contra isDigit
      have other : digit ≠ '\n' := by
        rintro rfl
        exact absurd rfl isDigit
      rw [isPoint] at pairedBehind
      rcases pairedBehind.2.eq_cons behindShape other with ⟨later, rfl, _⟩
      exact fraction ⟨digit, later, by simpa using isDigit, isPoint⟩

theorem string?_withoutReturns (paired : PairedReturns chars) :
    string? (TermScene.withoutReturns chars) = (string? chars).map withoutReturns := by
  have body := run_withoutReturns .string (· ≠ '"') paired (by decide)
  have stops := List.head?_dropWhile_not (fun char => decide (char ≠ '"')) chars
  unfold string?
  simp only [body]
  rcases shape : run .string (fun char => decide (char ≠ '"')) chars with ⟨kind, chars, behind⟩
  simp only [withoutReturns]
  rcases behind with _ | ⟨quote, later⟩
  · rfl
  · have isQuote : quote = '"' := by
      simp only [run, mk.injEq] at shape
      rw [shape.2.2] at stops
      simpa using stops
    subst isQuote
    rw [withoutReturns_cons (by decide)]
    simp [withoutReturns, withoutReturns_append, withoutReturns_cons]

theorem first?_withoutReturns (paired : PairedReturns chars) :
    first? (TermScene.withoutReturns chars) = (first? chars).map withoutReturns := by
  rcases chars with _ | ⟨char, rest⟩
  · rfl
  by_cases isReturn : char = '\r'
  · subst isReturn
    rcases paired.newline with ⟨later, rfl⟩
    have blanks := run_withoutReturns .whitespace isBlank paired (by decide)
    exact congrArg some blanks
  · have numerals := numeral_withoutReturns paired
    have strings := string?_withoutReturns paired.2
    have words := run_withoutReturns .identifier continuesIdentifier paired (by decide)
    have blanks := run_withoutReturns .whitespace isBlank paired (by decide)
    have comments := run_withoutReturns .comment (· ≠ '\n') paired (by decide)
    rw [withoutReturns_cons isReturn] at numerals words blanks comments ⊢
    unfold first?
    simp only [numerals, strings, words, blanks]
    split
    · rfl
    split
    · rfl
    split
    · rfl
    split
    · simp [withoutReturns, withoutReturns_cons isReturn]
    split
    · rfl
    split
    · have shape : TermScene.withoutReturns rest = '/' :: _ := ‹_›
      rcases paired.2.eq_cons shape (by decide) with ⟨later, rfl, _⟩
      exact congrArg some comments
    · have shape : TermScene.withoutReturns rest = '>' :: _ := ‹_›
      rcases paired.2.eq_cons shape (by decide) with ⟨later, rfl, rfl⟩
      rfl
    · rename_i noComment noArrow
      split
      · exact absurd rfl (noComment _ rfl)
      · exact absurd rfl (noArrow _ rfl)
      · rfl

end Runs

end Lexeme

/-- A lexeme that is kept and is no string has no carriage return. -/
theorem Matches.return_not_mem {kind : TokenKind} {chars : List Char} (full : Matches kind chars)
    (kept : kind.isKept = true) (notString : kind ≠ .string) : '\r' ∉ chars := by
  intro inside
  have visible := (full.visible kept notString _ inside).1
  simp [isBlank_return] at visible

/-- A lexeme that is kept does not end in a carriage return. -/
theorem Matches.getLast?_ne_return {kind : TokenKind} {chars : List Char} (full : Matches kind chars)
    (kept : kind.isKept = true) : chars.getLast? ≠ some '\r' := by
  intro isLast
  by_cases isString : kind = .string
  · subst isString
    cases full with
    | @string body closed =>
        rw [List.getLast?_append_of_ne_nil _ (by simp)] at isLast
        simp at isLast
  · exact full.return_not_mem kept isString (List.mem_of_getLast? isLast)

/-- Two cursors on the same line and in the same column, or with a newline next: in a text and in the
text without its returns. -/
structure Lockstep (cursor cursor' : Cursor) (chars : List Char) : Prop where
  line : cursor.line = cursor'.line
  column : chars.head? = some '\n' ∨ cursor.column = cursor'.column

theorem Lockstep.advance {cursor cursor' : Cursor} {chars rest : List Char}
    (lockstep : Lockstep cursor cursor' (chars ++ rest)) (paired : PairedReturns (chars ++ rest)) :
    Lockstep (cursor.advance chars) (cursor'.advance (withoutReturns chars)) rest := by
  induction chars generalizing cursor cursor' with
  | nil => exact lockstep
  | cons char later ih =>
      by_cases isReturn : char = '\r'
      · subst isReturn
        refine ih ⟨lockstep.line, .inl (paired.1 rfl)⟩ paired.2
      · rw [withoutReturns_cons isReturn, Cursor.advance_cons, Cursor.advance_cons]
        refine ih ?_ paired.2
        by_cases newline : char = '\n'
        · simp only [Cursor.step, newline, ↓reduceIte]
          exact ⟨congrArg (· + 1) lockstep.line, .inr rfl⟩
        · have sameColumn := lockstep.column.resolve_left (by simpa using newline)
          simp only [Cursor.step, newline, ↓reduceIte]
          exact ⟨lockstep.line, .inr (congrArg (· + 1) sameColumn)⟩

/-- The line and the column of a place. -/
def Location.spot (location : Location) : Int × Int := (location.line, location.column)

/-- A token of a text and one of the text without its returns: they agree but for the returns before
newlines, which are left out. -/
structure Token.Joined (token token' : Token) : Prop where
  kind : token'.kind = token.kind
  text : token'.text = String.ofList (joinReturns token.text.toList)
  spot : token'.location.map Location.spot = token.location.map Location.spot
  paired : PairedReturns token.text.toList
  lexeme : token.IsLexeme

/-- A kept lexeme, at two cursors that go in lockstep. -/
theorem joined_of_first? {lexeme : Lexeme} {chars : List Char} {cursor cursor' : Cursor}
    (found : Lexeme.first? chars = some lexeme) (kept : lexeme.kind.isKept = true)
    (paired : PairedReturns chars) (lockstep : Lockstep cursor cursor' chars)
    (filename filename' : Option String) :
    Token.Joined ⟨lexeme.kind, String.ofList lexeme.chars, some (cursor.location filename)⟩
      ⟨lexeme.kind, String.ofList (withoutReturns lexeme.chars),
        some (cursor'.location filename')⟩ := by
  have full := Lexeme.first?_matches found
  have split := (Lexeme.first?_split found).1
  have pairedText : PairedReturns lexeme.chars := by
    rw [← split] at paired
    exact paired.front (full.getLast?_ne_return kept)
  have sameColumn : cursor.column = cursor'.column := by
    apply lockstep.column.resolve_left
    intro newline
    rcases shape : lexeme.chars with _ | ⟨char, later⟩
    · exact full.ne_nil shape
    · rw [shape] at full split
      have notBlank := full.first_not_blank kept
      rw [← split, List.cons_append, List.head?_cons, Option.some.injEq] at newline
      rw [newline] at notBlank
      exact absurd notBlank (by decide)
  constructor
  case kind => rfl
  case text => rw [String.toList_ofList, pairedText.joinReturns_eq]
  case spot => simp [Cursor.location, Location.spot, lockstep.line, sameColumn]
  case paired => rwa [String.toList_ofList]
  case lexeme => exact ⟨full.isEmitted kept, by rwa [String.toList_ofList]⟩

/-- Reading a text and the text without its returns goes in lockstep, up to where both stop. -/
theorem scan_withoutReturns (filename filename' : Option String) {cursor cursor' : Cursor}
    {chars : List Char} (paired : PairedReturns chars) (lockstep : Lockstep cursor cursor' chars) :
    let result := scan filename cursor chars
    let result' := scan filename' cursor' (withoutReturns chars)
    List.Forall₂ Token.Joined result.tokens result'.tokens ∧
      result'.rest = withoutReturns result.rest ∧ PairedReturns result.rest ∧
        Lockstep result.cursor result'.cursor result.rest := by
  fun_induction scan filename cursor chars generalizing cursor' with
  | case1 cursor chars nothing =>
      have nothing' := Lexeme.first?_withoutReturns paired
      rw [nothing, Option.map_none] at nothing'
      rw [scan_eq_of_none nothing']
      exact ⟨.nil, rfl, paired, lockstep⟩
  | case2 cursor chars lexeme found later kept =>
      rename_i ih
      have found' := Lexeme.first?_withoutReturns paired
      rw [found, Option.map_some] at found'
      have joined := joined_of_first? found kept paired lockstep filename filename'
      rw [← (Lexeme.first?_split found).1] at paired lockstep
      rcases ih paired.of_append (lockstep.advance paired) with ⟨tokens, rest, pairedRest, ends⟩
      rw [scan_eq_of_first? found']
      simp only [Lexeme.withoutReturns, kept, ↓reduceIte]
      exact ⟨.cons joined tokens, rest, pairedRest, ends⟩
  | case3 cursor chars lexeme found later skipped =>
      rename_i ih
      have found' := Lexeme.first?_withoutReturns paired
      rw [found, Option.map_some] at found'
      rw [← (Lexeme.first?_split found).1] at paired lockstep
      rw [scan_eq_of_first? found']
      simp only [Lexeme.withoutReturns, skipped]
      exact ih paired.of_append (lockstep.advance paired)

end TermScene
