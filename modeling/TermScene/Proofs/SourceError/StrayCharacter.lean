import TermScene.Proofs.Text.Numbering
import TermScene.Proofs.Token.Front

/-!
# Stray characters

A reader of tokens comes to the end of the text or to a character that begins no lexeme. At such a character
the text before it is the longest front of the text that can be read, and the error shows the line of the
character with a caret under it. The reader stays where it is however often it is asked again, and gives the
same error each time. At the end of the text it stays as well, and gives no more tokens.
-/

namespace TermScene

namespace SourceError

/-- The full text of an error that keeps a line and a place. -/
theorem text_of_shown {error : SourceError} {location : Location} {line : String}
    (isAt : error.location = some location) (isShown : error.shownLine = some line) :
    error.text = "\n".intercalate ["[" ++ location.describe ++ "] " ++ error.message, "    " ++ line,
      indentation (4 + location.column - 1) ++ "^"] := by
  have newline : "\n    " = "\n" ++ "    " := by decide
  rw [String.intercalate_cons_cons, String.intercalate_cons_cons, String.intercalate_singleton]
  unfold text
  simp only [isAt, isShown]
  rw [newline]
  simp only [String.append_assoc]

/-- Such a text ends with the line and a caret under the column of the place. -/
theorem marks_text {error : SourceError} {location : Location} {line : String} {column : ℕ}
    (isAt : error.location = some location) (isShown : error.shownLine = some line)
    (isColumn : location.column = column + 1) (oneLine : '\n' ∉ line.toList) :
    Marks error.text line.toList 4 (4 + column) [] := by
  have isCaret : (indentation (4 + location.column - 1) ++ "^").toList =
      List.replicate (4 + column) ' ' ++ ['^'] := by
    have isCount : (4 + location.column - 1).toNat = 4 + column := by omega
    simp [indentation, isCount]
  rw [text_of_shown isAt isShown]
  refine marks_of_intercalate ["[" ++ location.describe ++ "] " ++ error.message] [] ?_ ?_ ?_ ?_ ?_ ?_
  · simpa using oneLine
  · simp [isCaret]
  · simp
  · simp
  · simp [isCaret]
  · rw [isCaret, List.idxOf_append_of_notMem (by simp), List.length_replicate]
    rfl

end SourceError

namespace Lexer

/-- The reader after it was asked for tokens so many times more. -/
def after (lexer : Lexer) (count : ℕ) : Lexer := (fun reader => reader.tokenize.2)^[count] lexer

/-- What a reader tells of the character at which it is stuck, and does when it is asked again. -/
structure IsStuck (source : String) (filename : Option String) (before : List Char) (char : Char)
    (line : String) (error : SourceError) (stuck : Lexer) : Prop where
  standsAt : ∃ rest, source.toList = before ++ char :: rest
  readable : ∀ name, ∃ tokens, tokensOf (String.ofList before) name = .ok tokens
  longest : ∀ name size, before.length < size →
    ∃ error, tokensOf (String.ofList (source.toList.take size)) name = .error error
  isError : error =
    .strayCharacter (String.singleton char) (some (placeAfter before filename)) (some line)
  isLine : (newlineParts source.toList)[lineAfter before - 1]? = some line.toList
  inLine : line.toList[columnAfter before - 1]? = some char
  marked : Marks error.text line.toList 4 (4 + (columnAfter before - 1)) []
  noTokens : stuck.tokens = []
  cursor : stuck.cursor = ⟨lineAfter before, columnAfter before, before.length⟩
  again : ∀ count, (stuck.after count).tokenize = (.error error, stuck)

/-- How a reader of a text ends, and goes on when it is asked again. -/
inductive Outcome (source : String) (filename : Option String) :
    Except SourceError (List Token) × Lexer → Prop where
  | stuck {before : List Char} {char : Char} {line : String} {error : SourceError} {stuck : Lexer}
      (isStuck : IsStuck source filename before char line error stuck) :
      Outcome source filename (.error error, stuck)
  | finished {tokens : List Token} {reader : Lexer}
      (cursor : reader.cursor =
        ⟨lineAfter source.toList, columnAfter source.toList, source.toList.length⟩)
      (again : ∀ count, (reader.after count).tokenize = (.ok [], { reader with tokens := [] })) :
      Outcome source filename (.ok tokens, reader)

section Again

variable {lexer : Lexer}

theorem after_of_stays (stays : lexer.tokenize.2 = lexer) (count : ℕ) : lexer.after count = lexer :=
  Function.iterate_fixed stays count

/-- A reader in front of a character that begins no lexeme gives the same error each time. -/
theorem again_of_stray {char : Char} {later : List Char} (isRest : lexer.rest = char :: later)
    (nothing : Lexeme.first? (char :: later) = none) (count : ℕ) :
    (lexer.after count).tokenize = (.error (lexer.unexpected char), lexer) := by
  have stops : scan lexer.filename lexer.cursor lexer.rest = ⟨[], lexer.cursor, char :: later⟩ := by
    rw [isRest, scan_eq_of_none nothing]
  have stays : lexer.tokenize = (.error (lexer.unexpected char), lexer) := by
    rw [tokenize_of_stray (by rw [stops])]
    simp only [stops, ← isRest]
  rw [after_of_stays (by rw [stays]), stays]

/-- A reader at the end of its text gives no more tokens. -/
theorem again_of_end (atEnd : lexer.rest = []) (count : ℕ) :
    (lexer.after count).tokenize = (.ok [], { lexer with tokens := [] }) := by
  rcases lexer with ⟨source, filename, cursor, rest, tokens⟩
  simp only at atEnd
  subst atEnd
  have stops : scan filename cursor [] = ⟨[], cursor, []⟩ := scan_eq_of_none rfl
  have empties (tokens : List Token) :
      tokenize ⟨source, filename, cursor, [], tokens⟩ =
        (.ok [], ⟨source, filename, cursor, [], []⟩) := by
    rw [tokenize_of_end (by rw [stops])]
    simp only [stops]
  cases count with
  | zero => exact empties tokens
  | succ count =>
      rw [after, Function.iterate_succ_apply, empties tokens, ← after,
        after_of_stays (by rw [empties]), empties]

end Again

section Stray

variable {before rest : List Char} {char : Char} (lexer : Lexer)

theorem currentLine_eq (split : lexer.source.toList = before ++ rest)
    (isCursor : lexer.cursor = ⟨lineAfter before, columnAfter before, before.length⟩) :
    lexer.currentLine.toList = lineSoFar before ++ rest.takeWhile (· ≠ '\n') := by
  have starts : before.length + 1 - columnAfter before = lineStart before := by
    rw [columnAfter_eq, ← lineStart_add_length]
    omega
  rw [currentLine, isCursor, starts, String.toList_ofList, split, takeWhile_drop_lineStart]

/-- What a reader without tokens tells that has passed all of the text before a stray character. -/
theorem isStuck_of_stray (split : lexer.source.toList = before ++ lexer.rest)
    (isCursor : lexer.cursor = ⟨lineAfter before, columnAfter before, before.length⟩)
    (isRest : lexer.rest = char :: rest) (nothing : Lexeme.first? (char :: rest) = none)
    (noTokens : lexer.tokens = [])
    (readable : ∀ name, ∃ tokens, tokensOf (String.ofList before) name = .ok tokens)
    (longest : ∀ name size, before.length < size →
      ∃ error, tokensOf (String.ofList (lexer.source.toList.take size)) name = .error error) :
    IsStuck lexer.source lexer.filename before char lexer.currentLine (lexer.unexpected char)
      lexer := by
  have ordinary : char ≠ '\n' := by
    rintro rfl
    exact absurd (Lexeme.isBlank_of_first?_eq_none nothing) (by decide)
  rw [isRest] at split
  have isLine := lexer.currentLine_eq split isCursor
  have found : (newlineParts lexer.source.toList)[lineAfter before - 1]? =
      some lexer.currentLine.toList := by
    rw [lineAfter, Nat.add_sub_cancel_left, isLine, split, getElem?_newlineParts]
  have holds : lexer.currentLine.toList[columnAfter before - 1]? = some char := by
    rw [isLine, columnAfter_eq, Nat.add_sub_cancel, List.getElem?_append_right le_rfl]
    simp [ordinary]
  have isPlace : lexer.cursor.location lexer.filename = placeAfter before lexer.filename := by
    rw [isCursor]
    rfl
  constructor
  case standsAt => exact ⟨rest, split⟩
  case readable => exact readable
  case longest => exact longest
  case isError => rw [unexpected, isPlace]
  case isLine => exact found
  case inLine => exact holds
  case marked =>
    apply SourceError.marks_text
    · rw [unexpected, isPlace, SourceError.location]
    · have nonempty : lexer.currentLine ≠ "" := by
        intro isEmpty
        rw [isEmpty] at holds
        simp at holds
      simp [unexpected, SourceError.shownLine, nonempty]
    · simp [placeAfter, columnAfter_eq]
    · exact not_mem_of_mem_partsAt (List.mem_of_getElem? found)
  case noTokens => exact noTokens
  case cursor => exact isCursor
  case again => exact again_of_stray isRest nothing

end Stray

/-- A reader of a text finds its end, or the first character that begins no lexeme and the longest front
that can be read. It stays there. -/
theorem tokenize_outcome (source : String) (filename : Option String) :
    Outcome source filename (ofSource source filename).tokenize := by
  rcases scan_of_front filename .start source.toList with ⟨passed, split, place, fronts⟩
  have stops := scan_stops filename .start source.toList
  rw [Cursor.start_advance] at place
  have reads (name : Option String) {part : List Char}
      (front : part <+: (scan filename .start source.toList).rest) :
      (scan name .start (String.ofList (passed ++ part)).toList).rest = part := by
    rw [String.toList_ofList]
    exact fronts name .start part front
  cases shape : (scan filename .start source.toList).rest with
  | nil =>
      rw [shape, List.append_nil] at split
      rw [tokenize_of_end shape]
      refine .finished ?_ (again_of_end rfl)
      rw [split]
      exact place
  | cons char rest =>
      rw [shape] at split stops reads
      rw [tokenize_of_stray shape]
      let stuck : Lexer := ⟨source, filename, (scan filename .start source.toList).cursor, char :: rest, []⟩
      refine .stuck (stuck.isStuck_of_stray split place rfl stops rfl ?_ ?_)
      · intro name
        have atEnd := reads name List.nil_prefix
        rw [List.append_nil] at atEnd
        exact ⟨_, by rw [tokensOf, tokenize_of_end atEnd]⟩
      · -- A longer front goes on with the same character, at which its reading stops as well.
        intro name size longer
        rcases Nat.exists_eq_add_of_lt longer with ⟨more, rfl⟩
        have front : source.toList.take (passed.length + more + 1) =
            passed ++ char :: rest.take more := by
          rw [split, Nat.add_assoc, List.take_length_add_append, List.take_succ_cons]
        have stray := reads name ((List.prefix_cons_inj char).mpr (List.take_prefix more rest))
        exact ⟨_, by rw [front, tokensOf, tokenize_of_stray stray]⟩

end Lexer

end TermScene
