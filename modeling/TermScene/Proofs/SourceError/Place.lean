import Mathlib.Tactic.IntervalCases
import TermScene.Proofs.Program.EarliestError
import TermScene.Proofs.Token.Front

/-!
# Places of errors

An error in a program is told at a character that begins no lexeme, at a token, or at the end of the
program. It stands in the text where its place says, so that its place is behind all of the text or before
a character that is no blank. Only an empty program has an error without a place.
-/

namespace TermScene

theorem isBlank_of_isLineBreak {char : Char} (isBreak : isLineBreak char = true) :
    isBlank char = true := by
  simp only [isLineBreak, Bool.or_eq_true, Bool.and_eq_true, decide_eq_true_eq, beq_iff_eq] at isBreak
  rw [isBlank, CharSet.contains]
  generalize char.toNat = point at isBreak
  rcases isBreak with (((⟨first, last⟩ | ⟨first, last⟩) | rfl) | rfl) | rfl
  · interval_cases point <;> decide
  · interval_cases point <;> decide
  · decide
  · decide
  · decide

/-- A token that stands in a text where its place says. -/
structure Token.PlacedIn (source : List Char) (filename : Option String) (token : Token) : Prop where
  lexeme : token.IsLexeme
  place : ∃ before rest, source = before ++ token.text.toList ++ rest ∧
    token.location = some (placeAfter before filename)

namespace SourceError

/-- An error that stands in a text where its place says, given what it was told at. -/
inductive PlacedIn (source : List Char) : SourceError → Prop where
  | character {before rest : List Char} {char : Char} {name line : Option String}
      (split : source = before ++ char :: rest) (visible : isBlank char = false) :
      PlacedIn source
        (.strayCharacter (String.singleton char) (some (placeAfter before name)) line)
  | token {message : String} {expected name : Option String} {token : Token}
      (placed : token.PlacedIn source name) :
      PlacedIn source (.strayToken message token.location expected (.token token))
  | finish {message : String} {expected name : Option String} (nonempty : source ≠ []) :
      PlacedIn source (.strayToken message (some (placeAfter source name)) expected
        (.token ⟨.endOfFile, "EOF", some (placeAfter source name)⟩))
  | nothing {message : String} {expected : Option String} (isEmpty : source = []) :
      PlacedIn source (.strayToken message none expected (.token ⟨.endOfFile, "EOF", none⟩))

end SourceError

theorem Tiled.placedIn {source : List Char} {filename : Option String} {tokens : List Token}
    (tiled : Tiled filename [] source tokens) : ∀ token ∈ tokens, token.PlacedIn source filename := by
  intro token isToken
  have text := tiled.texts token isToken
  rw [List.nil_append, between] at text
  refine ⟨tiled.lexemes token isToken, source.take token.start, source.drop token.stop, ?_, ?_⟩
  · have inOrder : token.start ≤ token.stop := Nat.le_add_right _ _
    have upTo : source.take token.start = (source.take token.stop).take token.start := by
      rw [List.take_take, min_eq_left inOrder]
    rw [← text, upTo, List.take_append_drop, List.take_append_drop]
  · simpa using tiled.places token isToken

section Sources

variable {source : String} {filename : Option String} {error : SourceError}

theorem placedIn_of_tokensOf (fails : tokensOf source filename = .error error) :
    error.PlacedIn source.toList := by
  have stops := scan_stops filename .start source.toList
  rcases scan_of_front filename .start source.toList with ⟨before, split, place, -⟩
  cases shape : (scan filename .start source.toList).rest with
  | nil =>
      rw [tokensOf_of_end shape] at fails
      simp at fails
  | cons char rest =>
      rcases tokensOf_of_stray shape with ⟨line, isError⟩
      rw [fails, Except.error.injEq] at isError
      rw [shape] at split stops
      rw [isError, place, Cursor.start_advance_location]
      exact .character split (Lexeme.isBlank_of_first?_eq_none stops)

theorem placedIn_of_programOfTokens {tokens : List Token} {name : String}
    (read : tokensOf source filename = .ok tokens)
    (fails : programOfTokens tokens source name = .error (.source error)) :
    error.PlacedIn source.toList := by
  have outcome : (Parser.ofTokens tokens source name).parse =
      (.error (.source error), ((Parser.ofTokens tokens source name).parse).2) :=
    Prod.ext fails rfl
  rcases Parser.halts_of_error outcome with ⟨front, rest, wanted, rfl, -, rfl, -⟩
  rcases rest with _ | ⟨token, later⟩
  · by_cases isEmpty : source = ""
    · -- Nothing is read from an empty text, so its end has no place at all.
      subst isEmpty
      rw [tokensOf_empty, Except.ok.injEq] at read
      rw [← read]
      exact .nothing rfl
    · rw [Parser.current, Parser.ofTokens, Parser.finishLocation_of_source isEmpty]
      exact .finish (by simpa using isEmpty)
  · have isToken : token ∈ front ++ token :: later := by simp
    exact .token ((tiled_of_tokensOf read).placedIn token isToken)

theorem programOfSource_of_error (fails : tokensOf source filename = .error error) :
    programOfSource source filename = .error (.source error) := by
  simp only [programOfSource, fails]

theorem placedIn_of_programOfSource (fails : programOfSource source filename = .error (.source error)) :
    error.PlacedIn source.toList := by
  rw [programOfSource] at fails
  split at fails
  · rename_i isError
    rw [Except.error.injEq, ReadFailure.source.injEq] at fails
    exact placedIn_of_tokensOf (fails ▸ isError)
  · rename_i read
    exact placedIn_of_programOfTokens read fails

end Sources

namespace SourceError.PlacedIn

variable {source : List Char} {error : SourceError} {location : Location}

/-- The place of an error is behind the text before it, and before a character that is no blank. -/
theorem exists_front (placed : PlacedIn source error) (isAt : error.location = some location) :
    ∃ before rest name, source = before ++ rest ∧ location = placeAfter before name ∧
      ∀ char ∈ rest.head?, isBlank char = false := by
  cases placed with
  | @character before rest char name line split visible =>
      simp only [SourceError.location, Option.some.injEq] at isAt
      exact ⟨before, char :: rest, name, split, isAt.symm, by simpa using visible⟩
  | @token message expected name token placed =>
      rcases placed.place with ⟨before, rest, split, isPlace⟩
      rw [SourceError.location, isPlace, Option.some.injEq] at isAt
      refine ⟨before, token.text.toList ++ rest, name, by rw [split, List.append_assoc], isAt.symm, ?_⟩
      have full := placed.lexeme.2
      rcases shape : token.text.toList with _ | ⟨first, later⟩
      · exact absurd shape full.ne_nil
      · rw [shape] at full
        simpa using full.first_not_blank placed.lexeme.1.1
  | @finish message expected name nonempty =>
      simp only [SourceError.location, Option.some.injEq] at isAt
      exact ⟨source, [], name, by simp, isAt.symm, by simp⟩
  | nothing isEmpty => simp [SourceError.location] at isAt

/-- An error before the end of the text stands before a character that ends no line. -/
theorem exists_char (placed : PlacedIn source error) (isAt : error.location = some location)
    (within : location.offset < source.length) :
    ∃ before char rest name, source = before ++ char :: rest ∧ location = placeAfter before name ∧
      isLineBreak char = false := by
  rcases placed.exists_front isAt with ⟨before, rest, name, rfl, rfl, visible⟩
  rcases rest with _ | ⟨char, rest⟩
  · simp [placeAfter] at within
  · refine ⟨before, char, rest, name, rfl, rfl, ?_⟩
    by_contra isBreak
    have blank := isBlank_of_isLineBreak (by simpa using isBreak)
    simp [visible char rfl] at blank

end SourceError.PlacedIn

end TermScene
