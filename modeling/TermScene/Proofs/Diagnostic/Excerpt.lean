import TermScene.Proofs.SourceError.Place
import TermScene.Proofs.Text.Numbering

/-!
# Excerpts

A diagnostic is shown with the line of the program that has the number of the line it is on. That number
counts newlines, but the lines that are looked up end at every line break, so another line is shown if
another break than a newline comes before. The carets below the line stand beside the place they are
meant to mark, as the margin of their line is narrower than the one of the line that is shown.
-/

namespace TermScene

theorem Span.length_pos (span : Span) : 0 < span.length := by
  rw [length]
  omega

namespace Diagnostic

theorem length_lineNumber (line : ℤ) :
    (lineNumber line).toList.length = max 3 (toString line).length := by
  simp [lineNumber, String.length_toList]
  omega

theorem newline_not_mem_lineNumber (line : ℕ) : '\n' ∉ (lineNumber line).toList := by
  have isDigits : toString (line : ℤ) = String.ofList (Nat.toDigits 10 line) := rfl
  simp only [lineNumber, isDigits, String.toList_append, String.toList_ofList, List.mem_append,
    List.mem_replicate, not_or]
  refine ⟨by simp, fun inside => ?_⟩
  exact absurd (Nat.isDigit_of_mem_toDigits (by decide) (by decide) inside) (by decide)

theorem newline_not_mem_helps (error : SourceError) (name : String) :
    ∀ help ∈ (ofError error name).helps, '\n' ∉ help.toList := by
  have inCharacter : '\n' ∉ characterHelp.toList := by
    rw [characterHelp, String.toList_ofList]
    decide
  have inCommand : '\n' ∉ commandHelp.toList := by
    rw [commandHelp, String.toList_ofList]
    decide
  have inSemicolon : '\n' ∉ semicolonHelp.toList := by
    rw [semicolonHelp, String.toList_ofList]
    decide
  cases error with
  | remark => simp [ofError, classify]
  | strayCharacter => simpa [ofError, classify] using inCharacter
  | strayToken message location expected found =>
      simp only [ofError, classify]
      split
      · simpa using inCommand
      · split
        · simp
        · split
          · simpa using inSemicolon
          · simp

section Render

variable {diagnostic : Diagnostic} {source : String} {span : Span} {line : List Char}

/-- A report with an excerpt has it between two lines at the top and the lines with help. -/
theorem exists_lines (style : DiagnosticStyle) (isSpan : diagnostic.span = some span)
    (isLine : excerptLine? (textLines source.toList) span = some line) :
    ∃ top, diagnostic.lines style source = top ++ (excerpt style span line ++
      diagnostic.helps.map fun help =>
        "   " ++ style.margin ++ "=" ++ style.reset ++ " " ++ style.help ++ "help:" ++ style.reset
          ++ " " ++ help) :=
  ⟨[diagnostic.header style,
    "  " ++ style.margin ++ "-->" ++ style.reset ++ " " ++ span.describe], by simp [lines, isSpan, isLine]⟩

theorem exists_plain_lines (isSpan : diagnostic.span = some span)
    (isLine : excerptLine? (textLines source.toList) span = some line)
    (oneLines : ∀ help ∈ diagnostic.helps, '\n' ∉ help.toList) :
    ∃ top bottom, diagnostic.lines .plain source = top ++ (excerpt .plain span line ++ bottom) ∧
      bottom.length = diagnostic.helps.length ∧ ∀ text ∈ bottom, '\n' ∉ text.toList := by
  rcases exists_lines .plain isSpan isLine with ⟨top, isReport⟩
  refine ⟨top, _, isReport, by simp, ?_⟩
  intro text inside
  rcases List.mem_map.mp inside with ⟨help, isHelp, rfl⟩
  simp [DiagnosticStyle.plain, oneLines help isHelp]

theorem excerpt_plain (span : Span) (line : List Char) :
    ∃ margin shown marks, excerpt .plain span line = [margin, shown, marks, margin] ∧
      margin.toList = [' ', ' ', ' ', '|'] ∧
      shown.toList = (lineNumber span.line).toList ++ [' ', '|', ' '] ++ line ∧
      marks.toList = [' ', ' ', ' ', '|', ' '] ++
        (List.replicate (span.startColumn - 1).toNat ' ' ++ List.replicate span.length.toNat '^') :=
  ⟨_, _, _, rfl, by simp [DiagnosticStyle.plain], by simp [DiagnosticStyle.plain],
    by simp [DiagnosticStyle.plain, SourceError.indentation]⟩

theorem newline_not_mem_excerptLine (isLine : excerptLine? (textLines source.toList) span = some line) :
    '\n' ∉ line := by
  intro inside
  rw [excerptLine?] at isLine
  split at isLine
  · have noBreak := inLine_of_mem_textLines (List.mem_of_getElem? isLine) '\n' inside
    exact absurd noBreak (by decide)
  · simp at isLine

/-- How a plain report marks a stretch of the line that it shows. The line starts behind its number and a
bar, and the carets stand behind a bar alone. The first one is therefore one column to the left of where it
belongs, and one more for each digit of the number beyond the third. -/
structure MarksBeside (diagnostic : Diagnostic) (source : String) (span : Span) (line : List Char)
    (column start caret : ℕ) (below : List (List Char)) : Prop where
  isColumn : span.startColumn = column + 1
  marks : Marks (diagnostic.render source false) line start caret below
  isLast : below.length = diagnostic.helps.length + 1
  beside : caret + 1 + ((toString span.line).length - 3) = start + column

theorem exists_marksBeside {before : List Char} (isSpan : diagnostic.span = some span)
    (isLine : excerptLine? (textLines source.toList) span = some line)
    (isNumber : span.line = lineAfter before) (isColumn : span.startColumn = columnAfter before)
    (oneLines : ∀ help ∈ diagnostic.helps, '\n' ∉ help.toList) :
    ∃ column start caret below,
      diagnostic.MarksBeside source span line column start caret below := by
  have inLine := newline_not_mem_excerptLine isLine
  rcases exists_plain_lines isSpan isLine oneLines with ⟨top, bottom, isReport, size, oneLines⟩
  rcases excerpt_plain span line with ⟨margin, shown, marks, isExcerpt, isMargin, isShown, isMarks⟩
  have isIndent : (span.startColumn - 1).toNat = (lineSoFar before).length := by
    rw [isColumn, columnAfter_eq]
    omega
  -- Nothing before the carets is one, so that they start as far to the right as it is long.
  have noCaret : '^' ∉ [' ', ' ', ' ', '|', ' '] ++ List.replicate (lineSoFar before).length ' ' := by
    simp
  have gutter : ((lineNumber span.line).toList ++ [' ', '|', ' ']).length =
      max 3 (toString span.line).length + 3 := by
    rw [List.length_append, length_lineNumber]
    rfl
  rw [isIndent, ← List.append_assoc] at isMarks
  have isText : diagnostic.render source false =
      "\n".intercalate ((top ++ [margin]) ++ shown :: marks :: margin :: bottom) := by
    simp [render, isReport, isExcerpt]
  refine ⟨(lineSoFar before).length, max 3 (toString span.line).length + 3,
    5 + (lineSoFar before).length, (margin :: bottom).flatMap fun text => newlineParts text.toList, ?_⟩
  constructor
  case isColumn => rw [isColumn, columnAfter_eq, Nat.cast_add_one]
  case marks =>
    rw [isText]
    apply marks_of_intercalate
    · simp [isShown, inLine, isNumber, newline_not_mem_lineNumber]
    · simp [isMarks]
    · rw [isShown, ← gutter, List.drop_left]
    · rw [isShown, List.length_append, gutter]
      exact Nat.le_add_right _ _
    · rw [isMarks]
      exact List.mem_append_right _ (by simp [span.length_pos])
    · rcases Nat.exists_eq_add_one.mpr (Int.lt_toNat.mpr span.length_pos) with ⟨more, isMore⟩
      rw [isMarks, List.idxOf_append_of_notMem noCaret, isMore, List.replicate_succ,
        List.idxOf_cons_self]
      simp only [List.length_append, List.length_cons, List.length_nil, List.length_replicate]
      omega
  case isLast =>
    rw [flatMap_newlineParts (List.forall_mem_cons.mpr ⟨by simp [isMargin], oneLines⟩)]
    simp [size]
  case beside => omega

/-- What a diagnostic shows of a text, given the text before the character that it is about. The line
that it shows has a number that is no greater than that of the character, and the same one exactly if all
line breaks before the character are newlines, each with a carriage return before it or without. -/
structure Excerpts (diagnostic : Diagnostic) (source : String) (before : List Char) (char : Char)
    (span : Span) (shown : List Char) : Prop where
  isSpan : diagnostic.span = some span
  isLine : 1 ≤ span.line ∧ (textLines source.toList)[(span.line - 1).toNat]? = some shown
  shows : ∀ colored, ∃ top bottom, diagnostic.render source colored =
    let style := if colored then DiagnosticStyle.colored diagnostic.severity else .plain
    "\n".intercalate (top ++ (excerpt style span shown ++ bottom))
  number : span.line ≤ (textLines (before ++ [char])).length ∧
    (span.line = (textLines (before ++ [char])).length ↔
      BreaksAtNewlines source.toList before.length)
  holds : BreaksAtNewlines source.toList before.length →
    shown[(span.startColumn - 1).toNat]? = some char

theorem exists_excerpts {before rest : List Char} {char : Char}
    (split : source.toList = before ++ char :: rest) (inLine : isLineBreak char = false)
    (isSpan : diagnostic.span = some span) (isNumber : span.line = lineAfter before)
    (isColumn : span.startColumn = columnAfter before) :
    ∃ shown, diagnostic.Excerpts source before char span shown := by
  have isIndex : (span.line - 1).toNat = before.count '\n' := by
    rw [isNumber, lineAfter]
    omega
  have fewer := count_le_lineBreaks before
  have isLast : (textLines (before ++ [char])).length = lineBreaks before + 1 := by
    rw [length_textLines_append inLine]
    simp [textLines, inLine]
  -- Every newline is a line break, so there is a line with that number.
  have inside : before.count '\n' < (textLines source.toList).length := by
    have nonempty := List.length_pos_iff.mpr (@textLines_ne_nil (char :: rest) (by simp))
    rw [split, length_textLines_append inLine]
    omega
  obtain ⟨shown, isLine⟩ : ∃ shown, (textLines source.toList)[before.count '\n']? = some shown :=
    ⟨_, List.getElem?_eq_getElem inside⟩
  have isPositive : 1 ≤ span.line := by
    rw [isNumber, lineAfter]
    omega
  have isShown : excerptLine? (textLines source.toList) span = some shown := by
    rw [excerptLine?, if_pos isPositive, isIndex, isLine]
  refine ⟨shown, isSpan, ⟨isPositive, by rw [isIndex, isLine]⟩, ?_, ?_, ?_⟩
  · intro colored
    rcases exists_lines (if colored then .colored diagnostic.severity else .plain) isSpan isShown with
      ⟨top, isReport⟩
    exact ⟨top, _, by rw [render, isReport]⟩
  · rw [isNumber, lineAfter, isLast, split, ← lineBreaks_eq_count_iff inLine]
    omega
  · intro breaks
    rw [split] at breaks
    have isFront := lineSoFar_prefix_lineOf inLine before rest breaks
    rw [← split, Editor.lineOf, isLine, Option.getD_some] at isFront
    rcases isFront with ⟨later, isFront⟩
    have isOffset : (span.startColumn - 1).toNat = (lineSoFar before).length := by
      rw [isColumn, columnAfter_eq]
      omega
    rw [isOffset, ← isFront, List.append_assoc, List.getElem?_append_right le_rfl]
    simp

end Render

section Errors

variable {source : String} {filename : Option String} {error : SourceError} {name : String} {span : Span}
  {line : List Char}

/-- The diagnostic of an error is about a stretch that starts in the place of the error. -/
theorem exists_span {before : List Char} {place : Option String} (name : String)
    (isAt : error.location = some (placeAfter before place)) :
    ∃ span, (ofError error name).span = some span ∧ span.line = lineAfter before ∧
      span.startColumn = columnAfter before := by
  simp only [ofError, isAt, Option.map_some]
  exact ⟨_, rfl, rfl, rfl⟩

/-- Where a plain report shows the line that an error is on, the carets are not under its place but to the
left of it. -/
theorem render_marks (fails : programOfSource source filename = .error (.source error))
    (isSpan : (ofError error name).span = some span)
    (isLine : excerptLine? (textLines source.toList) span = some line) :
    ∃ column start caret below,
      (ofError error name).MarksBeside source span line column start caret below := by
  rcases isAt : error.location with _ | location
  · simp [ofError, isAt] at isSpan
  · rcases (placedIn_of_programOfSource fails).exists_front isAt with ⟨before, rest, place, -, rfl, -⟩
    rcases exists_span name isAt with ⟨span', isSpan', isNumber, isColumn⟩
    rw [isSpan, Option.some.injEq] at isSpan'
    subst isSpan'
    exact exists_marksBeside isSpan isLine isNumber isColumn (newline_not_mem_helps error name)

/-- The brace in the place of a semicolon is in column 17 of the report, and the caret in column 16. -/
theorem render_marks_brace :
    ∃ error,
      programOfSource "canvas \x7b\n  wait 50;\n  wait 100 \x7d" (some "scene.canvas") =
          .error (.source error) ∧
        (ofError error inputName).span = some ⟨3, 12, 13, "scene.canvas"⟩ ∧
        (ofError error inputName).render "canvas \x7b\n  wait 50;\n  wait 100 \x7d" false =
          "\n".intercalate ["error[E0201]: Expected SEMICOLON, got RBRACE", "  --> scene.canvas:3:12",
            "   |", "  3 |   wait 100 \x7d", "   |            ^", "   |",
            "   = help: every command except frame and animate ends with ';'"] ∧
        "  3 |   wait 100 \x7d".toList.idxOf '\x7d' = 17 ∧
        "   |            ^".toList.idxOf '^' = 16 := by
  let source := "canvas \x7b\n  wait 50;\n  wait 100 \x7d"
  let at' (kind : TokenKind) (text : String) (line column offset : Int) : Token :=
    ⟨kind, text, some ⟨line, column, offset, some "scene.canvas"⟩⟩
  let wait : List Token :=
    [at' .identifier "wait" 2 3 11, at' .number "50" 2 8 16, at' .semicolon ";" 2 10 18]
  let front : List Token := at' .identifier "canvas" 1 1 0 :: at' .leftBrace "\x7b" 1 8 7 :: wait ++
    [at' .identifier "wait" 3 3 22, at' .number "100" 3 8 27]
  let brace := at' .rightBrace "\x7d" 3 12 31
  have read : tokensOf source (some "scene.canvas") = .ok (front ++ [brace]) := by decide +kernel
  have isCount : Token.HasCount (at' .number "50" 2 8 16) 50 :=
    ⟨.round 50, ⟨rfl, by decide +kernel⟩, by decide +kernel⟩
  have isWait : DerivesCommand wait _ := .plain (.wait ⟨rfl, rfl⟩ isCount rfl)
  have isKeyword : (at' .identifier "wait" 3 3 22).IsWord Keyword.wait.word := ⟨rfl, rfl⟩
  have breaks : Breaks [.count, .mark .semicolon] [at' .number "100" 3 8 27]
      (.wanted (.kind .semicolon)) [brace] :=
    .later rfl (by decide +kernel) (.kind (by decide))
  have halts : ProgramHalts front (.wanted (.kind .semicolon)) [brace] :=
    .inside rfl rfl (.later isWait (.simple (Token.keyword?_eq_some_iff.mpr isKeyword) rfl breaks))
  have fails : programOfSource source (some "scene.canvas") =
      .error (.source (Wanted.error (.kind .semicolon) brace)) := by
    simp only [programOfSource, read, programOfTokens]
    rw [Parser.parse_of_stuck _ _ (readProgram_of_halts halts)]
    rfl
  exact ⟨_, fails, by decide +kernel, by decide +kernel, by decide +kernel, by decide +kernel⟩

/-- A stray character on the first line. -/
theorem render_marks_first_line :
    ∃ error span line,
      programOfSource "?" none = .error (.source error) ∧
        (ofError error inputName).span = some span ∧
        excerptLine? (textLines "?".toList) span = some line ∧
        ∃ column start caret below,
          (ofError error inputName).MarksBeside "?" span line column start caret below := by
  let error := SourceError.strayCharacter "?" (some ⟨1, 1, 0, none⟩) (some "?")
  have read : tokensOf "?" none = .error error := by decide +kernel
  have fails := programOfSource_of_error read
  have isSpan : (ofError error inputName).span = some ⟨1, 1, 2, inputName⟩ := by decide +kernel
  have isLine : excerptLine? (textLines "?".toList) ⟨1, 1, 2, inputName⟩ = some ['?'] := by
    decide +kernel
  exact ⟨error, _, _, fails, isSpan, isLine, render_marks fails isSpan isLine⟩

/-- A diagnostic about a character shows a line, which is the one of the character exactly if only
newlines break lines before it. -/
theorem render_excerpts (fails : programOfSource source filename = .error (.source error))
    {location : Location} (isAt : error.location = some location)
    (within : location.offset < source.toList.length) (name : String) :
    ∃ before char rest span shown, source.toList = before ++ char :: rest ∧
      location.offset = before.length ∧
      (ofError error name).Excerpts source before char span shown := by
  rcases (placedIn_of_programOfSource fails).exists_char isAt within with
    ⟨before, char, rest, place, split, rfl, inLine⟩
  rcases exists_span name isAt with ⟨span, isSpan, isNumber, isColumn⟩
  rcases exists_excerpts split inLine isSpan isNumber isColumn with ⟨shown, excerpts⟩
  exact ⟨before, char, rest, span, shown, split, rfl, excerpts⟩

/-- After a form feed and a newline an empty line is shown for the character on the line behind them. -/
theorem render_excerpts_formFeed :
    ∃ error span,
      programOfSource "\x0c\n?" none = .error (.source error) ∧
        error.location = some ⟨2, 1, 2, none⟩ ∧ "\x0c\n?".toList = ['\x0c', '\n'] ++ '?' :: [] ∧
        (ofError error inputName).span = some span ∧ span.startColumn = 1 ∧
        excerptLine? (textLines "\x0c\n?".toList) span = some [] := by
  let error := SourceError.strayCharacter "?" (some ⟨2, 1, 2, none⟩) (some "?")
  have read : tokensOf "\x0c\n?" none = .error error := by decide +kernel
  exact ⟨error, ⟨2, 1, 2, inputName⟩, programOfSource_of_error read, rfl, by decide,
    by decide +kernel, rfl, by decide +kernel⟩

/-- A stray character on the second line, where the first one ends with a carriage return. -/
theorem render_excerpts_return :
    ∃ error location,
      programOfSource "a\r\n?" none = .error (.source error) ∧ error.location = some location ∧
        location.offset < "a\r\n?".toList.length ∧
        BreaksAtNewlines "a\r\n?".toList 3 ∧
        ∃ before char rest span shown, "a\r\n?".toList = before ++ char :: rest ∧
          location.offset = before.length ∧
          (ofError error inputName).Excerpts "a\r\n?" before char span shown := by
  let location : Location := ⟨2, 1, 3, none⟩
  let error := SourceError.strayCharacter "?" (some location) (some "?")
  have read : tokensOf "a\r\n?" none = .error error := by decide +kernel
  have fails := programOfSource_of_error read
  have within : location.offset < "a\r\n?".toList.length := by decide
  exact ⟨error, location, fails, rfl, within, by decide, render_excerpts fails rfl within inputName⟩

end Errors

end Diagnostic

end TermScene
