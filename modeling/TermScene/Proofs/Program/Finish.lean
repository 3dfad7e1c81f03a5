import TermScene.Proofs.Program.EarliestError
import TermScene.Proofs.Token.Layout

/-!
# The end of a program without its text

Where the text of a program is not known, its end is placed by the last token: on the line of the token,
as many columns further as the token is long. A reader of tokens gets there by consuming the token exactly
if there is no newline in it, which only a string can have. Otherwise it gets to a later line, one for each
newline in the string. The offset is the same in any case.
-/

namespace TermScene

namespace Cursor

variable (cursor : Cursor) {chars : List Char}

theorem advance_line (chars : List Char) :
    (cursor.advance chars).line = cursor.line + chars.count '\n' := by
  induction chars generalizing cursor with
  | nil => rfl
  | cons char rest ih =>
      rw [advance_cons, ih, step]
      by_cases newline : char = '\n'
      · simp only [newline, if_true, List.count_cons_self]
        omega
      · simp [newline]

/-- A text without newlines is passed on its line. -/
theorem advance_of_not_mem (noNewline : '\n' ∉ chars) :
    cursor.advance chars =
      ⟨cursor.line, cursor.column + chars.length, cursor.offset + chars.length⟩ := by
  induction chars generalizing cursor with
  | nil => rfl
  | cons char rest ih =>
      rw [List.mem_cons, not_or] at noNewline
      rw [advance_cons, ih _ noNewline.2, step, if_neg (Ne.symm noNewline.1), List.length_cons]
      simp only [Cursor.mk.injEq, true_and]
      omega

end Cursor

/-- The token that is kept of a lexeme at a place. -/
def Lexeme.token (lexeme : Lexeme) (filename : Option String) (cursor : Cursor) : Token :=
  ⟨lexeme.kind, String.ofList lexeme.chars, some (cursor.location filename)⟩

namespace Lexer

/-- The way of a reader through a text, lexeme by lexeme: the tokens kept by then, and the cursor and the
text that are reached. -/
inductive Passes (filename : Option String) :
    Cursor → List Char → List Token → Cursor → List Char → Prop where
  | here {cursor : Cursor} {chars : List Char} : Passes filename cursor chars [] cursor chars
  | kept {cursor reached : Cursor} {chars rest : List Char} {lexeme : Lexeme} {tokens : List Token}
      (found : Lexeme.first? chars = some lexeme) (isKept : lexeme.kind.isKept = true)
      (more : Passes filename (cursor.advance lexeme.chars) lexeme.rest tokens reached rest) :
      Passes filename cursor chars (lexeme.token filename cursor :: tokens) reached rest
  | skipped {cursor reached : Cursor} {chars rest : List Char} {lexeme : Lexeme} {tokens : List Token}
      (found : Lexeme.first? chars = some lexeme) (isSkipped : lexeme.kind.isKept = false)
      (more : Passes filename (cursor.advance lexeme.chars) lexeme.rest tokens reached rest) :
      Passes filename cursor chars tokens reached rest

/-- The last of the tokens of a text, and the cursor of the reader when it has just consumed it. -/
inductive ConsumesLast (filename : Option String) (cursor : Cursor) (chars : List Char) :
    List Token → Token → Cursor → Prop where
  | last {front : List Token} {reached : Cursor} {rest : List Char} {lexeme : Lexeme}
      (passes : Passes filename cursor chars front reached rest)
      (found : Lexeme.first? rest = some lexeme) (isKept : lexeme.kind.isKept = true) :
      ConsumesLast filename cursor chars (front ++ [lexeme.token filename reached])
        (lexeme.token filename reached) (reached.advance lexeme.chars)

/-- A reader that keeps any tokens consumes a last one. -/
theorem exists_consumesLast {filename : Option String} {cursor : Cursor} {chars : List Char}
    (nonempty : (scan filename cursor chars).tokens ≠ []) :
    ∃ last after,
      ConsumesLast filename cursor chars (scan filename cursor chars).tokens last after := by
  fun_induction scan filename cursor chars with
  | case1 cursor chars nothing => exact absurd rfl nonempty
  | case2 cursor chars lexeme found later isKept =>
      rename_i ih
      by_cases isLast : later.tokens = []
      · simp only [isLast]
        exact ⟨_, _, .last .here found isKept⟩
      · rcases ih isLast with ⟨last, after, consumes⟩
        generalize later.tokens = tokens at consumes
        rcases consumes with ⟨passes, foundLast, keptLast⟩
        exact ⟨_, _, .last (.kept found isKept passes) foundLast keptLast⟩
  | case3 cursor chars lexeme found later isSkipped =>
      rename_i ih
      rcases ih nonempty with ⟨last, after, consumes⟩
      refine ⟨last, after, ?_⟩
      generalize later.tokens = tokens at consumes
      rcases consumes with ⟨passes, foundLast, keptLast⟩
      exact .last (.skipped found (by simpa using isSkipped) passes) foundLast keptLast

theorem ConsumesLast.after_eq {filename : Option String} {cursor after : Cursor} {chars : List Char}
    {front : List Token} {token last : Token}
    (consumes : ConsumesLast filename cursor chars (front ++ [token]) last after) :
    ∃ reached, token.location = some (Cursor.location reached filename) ∧
      after = reached.advance token.text.toList := by
  generalize isTokens : front ++ [token] = tokens at consumes
  rcases consumes with @⟨front, reached, rest, lexeme, passes, found, isKept⟩
  rcases List.append_inj' isTokens rfl with ⟨-, isLast⟩
  rw [List.singleton_inj.mp isLast]
  exact ⟨reached, rfl, by simp [Lexeme.token]⟩

end Lexer

namespace Parser

/-- How the place of the end of a program that is told by its last token compares with the cursor of the
reader that has just consumed this token. -/
structure PlacesEnd (filename : Option String) (last : Token) (after : Cursor) (location : Location) :
    Prop where
  isFile : location.filename = filename
  isOffset : location.offset = after.offset
  isLine : location.line + last.text.toList.count '\n' = after.line
  exact_iff : location = after.location filename ↔ '\n' ∉ last.text.toList
  isString : '\n' ∈ last.text.toList → last.kind = .string

theorem finish_of_last {front : List Token} {last : Token} {location : Location}
    (isPlaced : last.location = some location) (name : String) :
    (ofTokens (front ++ [last]) "" name).finish =
      ⟨.endOfFile, "EOF", some { location with
        column := location.column + last.text.length
        offset := location.offset + last.text.length }⟩ := by
  simp [ofTokens, finishLocation, isPlaced]

theorem placesEnd_of_first? {chars : List Char} {lexeme : Lexeme}
    (found : Lexeme.first? chars = some lexeme) (isKept : lexeme.kind.isKept = true)
    (filename : Option String) (reached : Cursor) :
    PlacesEnd filename (lexeme.token filename reached) (reached.advance lexeme.chars)
      { reached.location filename with
        column := (reached.location filename).column + (String.ofList lexeme.chars).length
        offset := (reached.location filename).offset + (String.ofList lexeme.chars).length } := by
  have isText : (lexeme.token filename reached).text.toList = lexeme.chars := String.toList_ofList
  constructor
  case isFile => rfl
  case isOffset => simp [Cursor.location, Cursor.advance_offset]
  case isLine => simp [isText, Cursor.location, Cursor.advance_line]
  case exact_iff =>
    rw [isText]
    constructor
    · intro same
      have sameLine := congrArg Location.line same
      simp only [Cursor.location, Cursor.advance_line] at sameLine
      rw [← List.count_eq_zero]
      omega
    · intro noNewline
      simp [Cursor.location, reached.advance_of_not_mem noNewline]
  case isString =>
    rw [isText]
    intro newline
    by_contra notString
    have visible := ((Lexeme.first?_matches found).visible isKept notString _ newline).1
    simp [isBlank_newline] at visible

/-- An error at the end of a program is told at the place of its end. -/
theorem location_of_endError {tokens : List Token} {source name message : String}
    {location : Option Location} {expected : Option String} {found : Token}
    (noEnd : ∀ token ∈ tokens, token.kind ≠ .endOfFile)
    (fails : programOfTokens tokens source name =
      .error (.source (.strayToken message location expected (.token found))))
    (atEnd : found.kind = .endOfFile) :
    found = (ofTokens tokens source name).finish ∧
      location = (ofTokens tokens source name).finish.location := by
  have outcome : (ofTokens tokens source name).parse =
      (.error (.source (.strayToken message location expected (.token found))),
        ((ofTokens tokens source name).parse).2) :=
    Prod.ext fails rfl
  rcases halts_of_error outcome with ⟨front, rest, wanted, rfl, -, isError, -⟩
  simp only [Wanted.error, SourceError.strayToken.injEq, Found.token.injEq] at isError
  rcases isError with ⟨-, rfl, -, rfl⟩
  rcases rest with _ | ⟨token, later⟩
  · exact ⟨rfl, rfl⟩
  · exact absurd atEnd (noEnd token (by simp))

section Sources

variable {source : String} {filename : Option String} {tokens : List Token}

theorem exists_consumesLast_of_tokensOf (read : tokensOf source filename = .ok tokens)
    (nonempty : tokens ≠ []) :
    ∃ last after, Lexer.ConsumesLast filename .start source.toList tokens last after := by
  have isScan : (scan filename .start source.toList).tokens = tokens := by
    cases shape : (scan filename .start source.toList).rest with
    | nil => rwa [tokensOf_of_end shape, Except.ok.injEq] at read
    | cons char later =>
        rcases tokensOf_of_stray shape with ⟨line, fails⟩
        simp [fails] at read
  subst isScan
  exact Lexer.exists_consumesLast nonempty

/-- A parser that is not given the text of a program places its end by the last token. The place is the
one that the reader of tokens has got to by consuming this token, and errors at the end are told there,
exactly if there is no newline in the token. -/
theorem finish_of_tokensOf (read : tokensOf source filename = .ok tokens) (nonempty : tokens ≠ [])
    (name : String) :
    ∃ last after location,
      Lexer.ConsumesLast filename .start source.toList tokens last after ∧
        (ofTokens tokens "" name).finish = ⟨.endOfFile, "EOF", some location⟩ ∧
        PlacesEnd filename last after location ∧
        ∀ message place expected found,
          programOfTokens tokens "" name =
              .error (.source (.strayToken message place expected (.token found))) →
            found.kind = .endOfFile → place = some location := by
  have noEnd : ∀ token ∈ tokens, token.kind ≠ .endOfFile := by
    intro token isToken
    exact ((tiled_of_tokensOf read).lexemes token isToken).1.2
  rcases exists_consumesLast_of_tokensOf read nonempty with ⟨last, after, consumes⟩
  rcases consumes with @⟨front, reached, rest, lexeme, passes, found, isKept⟩
  have isFinish := @finish_of_last front (lexeme.token filename reached) _ rfl name
  refine ⟨_, _, _, .last passes found isKept, isFinish, placesEnd_of_first? found isKept _ _, ?_⟩
  intro message place expected found fails atEnd
  rw [(location_of_endError noEnd fails atEnd).2, isFinish]

/-- Behind a string over two lines the end is placed on the first of them, and the reader is on the
second. -/
theorem finish_of_tokensOf_string :
    ∃ tokens last found,
      tokensOf "canvas \x7b background \"a\nb\"" none = .ok tokens ∧
        Lexer.ConsumesLast none .start "canvas \x7b background \"a\nb\"".toList tokens last
          ⟨2, 3, 25⟩ ∧
        found.kind = .endOfFile ∧ found.location = some ⟨1, 26, 25, none⟩ ∧
        programOfTokens tokens "" inputName =
          .error (.source (Wanted.error (.kind .semicolon) found)) := by
  let front : List Token :=
    [⟨.identifier, "canvas", some ⟨1, 1, 0, none⟩⟩, ⟨.leftBrace, "\x7b", some ⟨1, 8, 7, none⟩⟩,
      ⟨.identifier, "background", some ⟨1, 10, 9, none⟩⟩]
  let string : Token := ⟨.string, "\"a\nb\"", some ⟨1, 21, 20, none⟩⟩
  have read : tokensOf "canvas \x7b background \"a\nb\"" none = .ok (front ++ [string]) := by cbv
  rcases exists_consumesLast_of_tokensOf read (by simp) with ⟨last, after, consumes⟩
  rcases consumes.after_eq with ⟨⟨line, column, offset⟩, place, rfl⟩
  have isReached : line = 1 ∧ column = 21 ∧ offset = 20 := by
    simp only [string, Cursor.location, Option.some.injEq, Location.mk.injEq] at place
    omega
  rcases isReached with ⟨rfl, rfl, rfl⟩
  have isAfter : Cursor.advance ⟨1, 21, 20⟩ string.text.toList = ⟨2, 3, 25⟩ := by decide
  rw [isAfter] at consumes
  refine ⟨_, last, ⟨.endOfFile, "EOF", some ⟨1, 26, 25, none⟩⟩, read, consumes, rfl, rfl, ?_⟩
  cbv

/-- A word behind a string over two lines. -/
theorem finish_of_tokensOf_word :
    ∃ tokens last after location,
      tokensOf "canvas \x7b\n  text \"a\nb\" at" none = .ok tokens ∧ tokens ≠ [] ∧
        Lexer.ConsumesLast none .start "canvas \x7b\n  text \"a\nb\" at".toList tokens last after ∧
        (ofTokens tokens "" inputName).finish = ⟨.endOfFile, "EOF", some location⟩ ∧
        PlacesEnd none last after location := by
  have read : ∃ tokens, tokensOf "canvas \x7b\n  text \"a\nb\" at" none = .ok tokens ∧
      tokens ≠ [] := ⟨_, by cbv, by simp⟩
  rcases read with ⟨tokens, read, nonempty⟩
  rcases finish_of_tokensOf read nonempty inputName with
    ⟨last, after, location, consumes, isFinish, places, -⟩
  exact ⟨tokens, last, after, location, read, nonempty, consumes, isFinish, places⟩

end Sources

end Parser

end TermScene
