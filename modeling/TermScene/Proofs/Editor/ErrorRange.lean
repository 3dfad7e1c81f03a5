import TermScene.Editor.Lint
import TermScene.Proofs.Editor.Line
import TermScene.Proofs.SourceError.Place
import TermScene.Proofs.Text.Numbering

/-!
# The range of an error

An editor is told of an error at a token with a range on the line where the token starts, as long as the
text of the token. It covers the token exactly if there is no newline in the token, which only a string
can have. Otherwise it goes on past the end of the line.
-/

namespace TermScene

/-- A text ends on the line on which it starts exactly if there is no newline in it. -/
theorem Position.after_append_eq_iff {text : List Char} (before : List Char) :
    after (before ++ text) =
        ⟨(after before).line, (after before).character + text.length⟩ ↔ '\n' ∉ text := by
  simp only [after_eq]
  constructor
  · intro same
    simpa [List.count_eq_zero] using congrArg Position.line same
  · intro noNewline
    rw [lineSoFar_append_of_not_mem before noNewline]
    simp [List.count_eq_zero.mpr noNewline]

namespace Editor

section Errors

variable {source uri : String}

theorem placedIn_of_readDocument {error : SourceError}
    (fails : readDocument source uri = .error (.source error)) : error.PlacedIn source.toList := by
  rw [readDocument] at fails
  split at fails
  · rename_i isError
    rw [Except.error.injEq, ReadFailure.source.injEq] at fails
    exact placedIn_of_tokensOf (fails ▸ isError)
  · rename_i read
    split at fails
    · simp at fails
    · rename_i isFailure
      rw [Except.error.injEq] at fails
      exact placedIn_of_programOfTokens read (fails ▸ isFailure)

theorem problems_of_error {error : SourceError}
    (fails : readDocument source uri = .error (.source error)) :
    problems source uri = .ok ([problemOfError error uri], []) := by
  simp only [problems, fails]

/-- How an editor is told of an error at a token, given the stretch that the token runs through and the
line on which it starts. -/
structure MarksToken (source : String) (token : Token) (problem : Problem) (stretch : TextRange)
    (line : List Char) : Prop where
  isError : problem.severity = .error
  covers : token.Covers stretch
  isLine : (newlineParts source.toList)[stretch.start.line.toNat]? = some line
  starts : problem.range.start = stretch.start
  onLine : problem.range.stop.line = stretch.start.line
  exact_iff : problem.range = stretch ↔ '\n' ∉ token.text.toList
  within_iff : problem.range.stop.character ≤ line.length ↔ '\n' ∉ token.text.toList
  isString : '\n' ∈ token.text.toList → token.kind = .string

section Placed

variable {message text : String} {expected name : Option String} {kind : TokenKind}
  {before rest : List Char}

/-- The range of an error at a token is on the line where the token starts. -/
theorem range_problemOfError (nonempty : text ≠ "") (real : kind ≠ .endOfFile) :
    (problemOfError (.strayToken message (some (placeAfter before name)) expected
        (.token ⟨kind, text, some (placeAfter before name)⟩)) uri).range =
      ⟨.after before, ⟨(Position.after before).line, (Position.after before).character + text.length⟩⟩ := by
  have positive : 1 ≤ text.length := by
    simpa [Nat.one_le_iff_ne_zero] using nonempty
  simp [problemOfError, Diagnostic.ofError, SourceError.location, Diagnostic.errorWidth, Found.width,
    nonempty, real, Span.ofLocation, Span.length, TextRange.onLine, placeAfter, lineAfter,
    columnAfter_eq, Position.after_eq, positive]

theorem marksToken_problemOfError (split : source.toList = before ++ text.toList ++ rest)
    (emitted : kind.IsEmitted) (full : Matches kind text.toList) :
    MarksToken source ⟨kind, text, some (placeAfter before name)⟩
      (problemOfError (.strayToken message (some (placeAfter before name)) expected
        (.token ⟨kind, text, some (placeAfter before name)⟩)) uri)
      ⟨.after before, .after (before ++ text.toList)⟩
      (lineSoFar before ++ (text.toList ++ rest).takeWhile (· ≠ '\n')) := by
  have nonempty : text ≠ "" := by simpa using full.ne_nil
  have range := @range_problemOfError uri message text expected name kind before nonempty emitted.2
  constructor
  case isError => rfl
  case covers => exact Token.covers_placed full.ne_nil
  case isLine =>
    rw [split, List.append_assoc, Position.after_eq, Int.toNat_natCast, getElem?_newlineParts]
  case starts => rw [range]
  case onLine => rw [range]
  case exact_iff =>
    rw [range, TextRange.mk.injEq, ← String.length_toList, ← Position.after_append_eq_iff before,
      eq_comm (b := Position.after (before ++ text.toList))]
    simp
  case within_iff =>
    rw [range, List.length_append, ← length_le_takeWhile_iff text.toList rest, Position.after_eq,
      String.length_toList]
    simp
  case isString =>
    intro newline
    by_contra notString
    have visible := (full.visible emitted.1 notString _ newline).1
    simp [isBlank_newline] at visible

end Placed

/-- An editor is told of an error at a token by one problem. Its range covers the token, and stays on its
line, exactly if there is no newline in the token. -/
theorem problems_of_strayToken {message : String} {location : Option Location}
    {expected : Option String} {token : Token}
    (fails : readDocument source uri =
      .error (.source (.strayToken message location expected (.token token))))
    (real : token.kind ≠ .endOfFile) :
    ∃ problem stretch line, problems source uri = .ok ([problem], []) ∧
      MarksToken source token problem stretch line := by
  cases placedIn_of_readDocument fails with
  | finish nonempty => exact absurd rfl real
  | nothing isEmpty => exact absurd rfl real
  | token placed =>
      rcases token with ⟨kind, text, location⟩
      rcases placed with ⟨⟨emitted, full⟩, before, rest, split, rfl⟩
      exact ⟨_, _, _, problems_of_error fails, marksToken_problemOfError split emitted full⟩

/-- The range of a string over two lines ends behind the end of the first of them. -/
theorem problems_of_strayToken_string :
    ∃ token problem stretch, token.kind = .string ∧
      readDocument "canvas \x7b \"a\nb\" \x7d" "uri" =
        .error (.source (Wanted.command.error token)) ∧
      problems "canvas \x7b \"a\nb\" \x7d" "uri" = .ok ([problem], []) ∧
      token.Covers stretch ∧ stretch = ⟨⟨0, 9⟩, ⟨1, 2⟩⟩ ∧ problem.range = ⟨⟨0, 9⟩, ⟨0, 14⟩⟩ ∧
      newlineParts "canvas \x7b \"a\nb\" \x7d".toList =
        ["canvas \x7b \"a".toList, "b\" \x7d".toList] := by
  let token : Token := ⟨.string, "\"a\nb\"", some ⟨1, 10, 9, some "uri"⟩⟩
  have fails : readDocument "canvas \x7b \"a\nb\" \x7d" "uri" =
      .error (.source (Wanted.command.error token)) := by
    cbv
  have covers : token.Covers ⟨⟨0, 9⟩, ⟨1, 2⟩⟩ :=
    ⟨rfl, by decide +kernel, Position.lt_def.mpr (.inl (by decide))⟩
  exact ⟨token, _, _, rfl, fails, problems_of_error fails, covers, rfl, by decide +kernel, by decide⟩

/-- A word where a brace is wanted. -/
theorem problems_of_strayToken_word :
    ∃ message location expected token,
      readDocument "a b" "uri" =
        .error (.source (.strayToken message location expected (.token token))) ∧
      token.kind ≠ .endOfFile ∧
      ∃ problem stretch line, problems "a b" "uri" = .ok ([problem], []) ∧
        MarksToken "a b" token problem stretch line := by
  let token : Token := ⟨.identifier, "b", some ⟨1, 3, 2, some "uri"⟩⟩
  have fails : readDocument "a b" "uri" =
      .error (.source (Wanted.error (.kind .leftBrace) token)) := by
    cbv
  exact ⟨_, _, _, token, fails, by decide, problems_of_strayToken fails (by decide)⟩

end Errors

end Editor

end TermScene
