import TermScene.Editor.Completion
import TermScene.Proofs.Editor.ErrorRange

/-!
# The word that a place touches

A place touches a word at its start, at its end and everywhere between. An editor finds the word at a
place by going back to its start and on to its end, so that it finds the same word from every place that
touches it. It looks a place up in lines that end at every line break, while the place of a token counts
newlines alone. In a document with no other line breaks both are the same, and an identifier with no
further letters, numbers or underscores beside it is the word at each of its places. If it is the first
word of a command, what users are told about the command is shown there.
-/

namespace TermScene

/-- No character of a word stands at the end of one text or at the start of another. -/
structure Apart (before after : List Char) : Prop where
  starts : ∀ char ∈ before.getLast?, isWordCharacter char = false
  ends : ∀ char ∈ after.head?, isWordCharacter char = false

/-- The characters of words on both sides of a place, and what stands beyond them. -/
structure AreRuns (before first second after : List Char) : Prop where
  inFirst : ∀ char ∈ first, isWordCharacter char = true
  inSecond : ∀ char ∈ second, isWordCharacter char = true
  apart : Apart before after

/-- A longest run of characters of words, given what stands before it and after it. -/
structure IsRun (before word after : List Char) : Prop where
  nonempty : word ≠ []
  inside : ∀ char ∈ word, isWordCharacter char = true
  apart : Apart before after

/-- What stands beside a text stands beside it on its line too. -/
theorem Apart.onLine {before rest : List Char} (apart : Apart before rest) :
    Apart (lineSoFar before) (rest.takeWhile (· ≠ '\n')) where
  starts char isLast := by
    apply apart.starts
    rw [← rdropWhile_append_lineSoFar before, List.getLast?_append]
    simp [Option.mem_def.mp isLast]
  ends char isFirst := by
    apply apart.ends
    rcases rest with _ | ⟨first, later⟩
    · simp at isFirst
    · by_cases newline : first = '\n' <;> simp_all

/-- What stands before a place and after it on its line, as an editor looks lines up. -/
def Position.IsBetween (source : String) (position : Position) (before after : List Char) : Prop :=
  ∃ line : ℕ, (textLines source.toList)[line]? = some (before ++ after) ∧
    position = ⟨line, before.length⟩

/-- A place at one of the ends of a range within a line, or between them. -/
structure Position.Touches (position : Position) (range : TextRange) : Prop where
  startLine : position.line = range.start.line
  stopLine : position.line = range.stop.line
  after : range.start.character ≤ position.character
  before : position.character ≤ range.stop.character

namespace Editor

/-- A word as it stands on a line of a document. -/
structure Word.StandsOn (source : String) (word : Word) (line : ℕ) (before after : List Char) :
    Prop where
  isLine : (textLines source.toList)[line]? = some (before ++ word.text.toList ++ after)
  isRun : IsRun before word.text.toList after
  range : word.range = .onLine line before.length word.text.length

section Runs

variable {before first second after : List Char}

theorem takeWhile_append_of_head? {member : Char → Bool} {chars rest : List Char}
    (inside : ∀ char ∈ chars, member char = true)
    (outside : ∀ char ∈ rest.head?, member char = false) :
    (chars ++ rest).takeWhile member = chars := by
  have run := @Lexeme.run_append_eq member .identifier chars rest inside outside
  exact congrArg Lexeme.chars run

/-- The characters of words up to a place and from it on are all found. -/
theorem runsAround_append (runs : AreRuns before first second after) :
    runsAround ((before ++ first) ++ (second ++ after)) (before ++ first).length = (first, second) := by
  have back : (first.reverse ++ before.reverse).takeWhile isWordCharacter = first.reverse :=
    takeWhile_append_of_head? (by simpa using runs.inFirst) (by simpa using runs.apart.starts)
  rw [runsAround, List.take_left, List.drop_left, List.reverse_append, back, List.reverse_reverse,
    takeWhile_append_of_head? runs.inSecond runs.apart.ends]

theorem exists_runs (left right : List Char) :
    ∃ before first second after, left = before ++ first ∧ right = second ++ after ∧
      AreRuns before first second after := by
  refine ⟨left.rdropWhile isWordCharacter, left.rtakeWhile isWordCharacter,
    right.takeWhile isWordCharacter, right.dropWhile isWordCharacter,
    List.rdropWhile_append_rtakeWhile.symm, List.takeWhile_append_dropWhile.symm,
    fun _ => List.mem_rtakeWhile_imp, fun _ => List.mem_takeWhile_imp, ?_, ?_⟩
  · intro char isLast
    rcases List.mem_getLast?_eq_getLast isLast with ⟨nonempty, rfl⟩
    simpa using List.rdropWhile_last_not isWordCharacter left nonempty
  · intro char isFirst
    have stop := List.head?_dropWhile_not isWordCharacter right
    rw [Option.mem_def] at isFirst
    rwa [isFirst] at stop

/-- No character of a word is beside a place exactly if there is none in the runs around it. -/
theorem apart_append_iff (runs : AreRuns before first second after) :
    Apart (before ++ first) (second ++ after) ↔ first ++ second = [] := by
  constructor
  · intro beside
    refine List.append_eq_nil_iff.mpr ⟨?_, ?_⟩
    · by_contra nonempty
      have isLast : first.getLast nonempty ∈ (before ++ first).getLast? := by
        simp [List.getLast?_append, List.getLast?_eq_some_getLast nonempty]
      exact absurd (runs.inFirst _ (List.getLast_mem nonempty)) (by simp [beside.starts _ isLast])
    · by_contra nonempty
      have isFirst : second.head nonempty ∈ (second ++ after).head? := by
        simp [List.head?_append, List.head?_eq_some_head nonempty]
      exact absurd (runs.inSecond _ (List.head_mem nonempty)) (by simp [beside.ends _ isFirst])
  · intro isEmpty
    rcases List.append_eq_nil_iff.mp isEmpty with ⟨rfl, rfl⟩
    simpa using runs.apart

/-- The runs on both sides of a place make up one run, unless both are empty. -/
theorem isRun_append_iff :
    IsRun before (first ++ second) after ↔
      first ++ second ≠ [] ∧ AreRuns before first second after := by
  constructor
  · rintro ⟨nonempty, inside, apart⟩
    rcases List.forall_mem_append.mp inside with ⟨inFirst, inSecond⟩
    exact ⟨nonempty, inFirst, inSecond, apart⟩
  · rintro ⟨nonempty, runs⟩
    exact ⟨nonempty, List.forall_mem_append.mpr ⟨runs.inFirst, runs.inSecond⟩, runs.apart⟩

end Runs

section Words

variable {source : String} {position : Position} {before first second after : List Char}

theorem wordAt?_of_outside (outside : ∀ before after, ¬position.IsBetween source before after) :
    wordAt? source position = none := by
  rw [wordAt?]
  split
  · rfl
  · rename_i line isLine
    rw [lineAt?] at isLine
    split at isLine
    · rename_i natural
      refine if_neg fun inside => ?_
      refine outside (line.take position.character.toNat) (line.drop position.character.toNat)
        ⟨position.line.toNat, by rwa [List.take_append_drop], ?_⟩
      rcases position with ⟨number, character⟩
      simp only [Position.mk.injEq, List.length_take] at *
      omega
    · simp at isLine

/-- The word at a place, from the characters of words on both sides of it. -/
theorem wordAt?_of_isBetween (isBetween : position.IsBetween source (before ++ first) (second ++ after))
    (runs : AreRuns before first second after) :
    wordAt? source position =
      if first ++ second = [] then none
      else some ⟨String.ofList (first ++ second),
        .onLine position.line before.length (first ++ second).length⟩ := by
  rcases isBetween with ⟨line, isLine, rfl⟩
  have found : lineAt? source (line : ℤ) = some ((before ++ first) ++ (second ++ after)) := by
    simpa [lineAt?] using isLine
  have inside : (0 : ℤ) ≤ (before ++ first).length ∧
      ((before ++ first).length : ℤ) ≤ ((before ++ first) ++ (second ++ after)).length := by
    simp only [List.length_append]
    omega
  have starts : ((before ++ first).length : ℤ) - first.length = before.length := by simp
  simp only [wordAt?, found, if_pos inside, Int.toNat_natCast, runsAround_append runs, starts]

/-- A place is outside the text, or it has runs of characters of words on both sides. -/
theorem outside_or_areRuns (source : String) (position : Position) :
    (∀ before after, ¬position.IsBetween source before after) ∨
      ∃ before first second after, position.IsBetween source (before ++ first) (second ++ after) ∧
        AreRuns before first second after := by
  by_cases outside : ∀ before after, ¬position.IsBetween source before after
  · exact .inl outside
  · push Not at outside
    rcases outside with ⟨left, right, isBetween⟩
    rcases exists_runs left right with ⟨before, first, second, after, rfl, rfl, runs⟩
    exact .inr ⟨before, first, second, after, isBetween, runs⟩

/-- At a place outside the text no word is found, nor at one with no character of a word beside it. -/
theorem wordAt?_eq_none_iff :
    wordAt? source position = none ↔
      ∀ before after, position.IsBetween source before after → Apart before after := by
  constructor
  · intro noWord left right isBetween
    rcases exists_runs left right with ⟨before, first, second, after, rfl, rfl, runs⟩
    rw [apart_append_iff runs]
    by_contra nonempty
    rw [wordAt?_of_isBetween isBetween runs, if_neg nonempty] at noWord
    simp at noWord
  · intro beside
    rcases outside_or_areRuns source position with outside | ⟨_, _, _, _, isBetween, runs⟩
    · exact wordAt?_of_outside outside
    · rw [wordAt?_of_isBetween isBetween runs, if_pos ((apart_append_iff runs).mp (beside _ _ isBetween))]

/-- A place that touches a word cuts it in two, either part of which may be empty. -/
theorem Word.StandsOn.exists_isBetween {word : Word} {line : ℕ}
    (stands : word.StandsOn source line before after) (touches : position.Touches word.range) :
    ∃ first second, word.text.toList = first ++ second ∧ position.line = line ∧
      position.IsBetween source (before ++ first) (second ++ after) := by
  rcases position with ⟨number, character⟩
  rcases stands with ⟨isLine, -, isRange⟩
  rcases touches with ⟨onLine, -, starts, stops⟩
  simp only [isRange, TextRange.onLine] at onLine starts stops
  have length : word.text.toList.length = word.text.length := String.length_toList
  obtain ⟨first, second, whole, cut⟩ : ∃ first second, word.text.toList = first ++ second ∧
      first.length = character.toNat - before.length :=
    ⟨_, _, (List.take_append_drop (character.toNat - before.length) word.text.toList).symm,
      by rw [List.length_take]; omega⟩
  rw [whole] at isLine
  refine ⟨first, second, whole, onLine, line, by simpa using isLine, ?_⟩
  simp only [Position.mk.injEq, List.length_append]
  omega

/-- The word at a place is the one that the place touches. -/
theorem wordAt?_eq_some_iff {word : Word} :
    wordAt? source position = some word ↔
      ∃ line before after, word.StandsOn source line before after ∧ position.Touches word.range := by
  constructor
  · intro found
    rcases outside_or_areRuns source position with outside | ⟨before, first, second, after, isBetween, runs⟩
    · simp [wordAt?_of_outside outside] at found
    · rw [wordAt?_of_isBetween isBetween runs] at found
      split at found
      · simp at found
      · rename_i nonempty
        rw [Option.some.injEq] at found
        subst found
        rcases isBetween with ⟨line, isLine, rfl⟩
        refine ⟨line, before, after, ⟨?_, ?_, ?_⟩, ⟨rfl, rfl, ?_, ?_⟩⟩
        · simpa using isLine
        · rw [String.toList_ofList]
          exact isRun_append_iff.mpr ⟨nonempty, runs⟩
        · simp
        · simp [TextRange.onLine]
        · simp [TextRange.onLine]
  · rintro ⟨line, before, after, stands, touches⟩
    rcases stands.exists_isBetween touches with ⟨first, second, whole, onLine, isBetween⟩
    have isRun := stands.isRun
    rw [whole] at isRun
    rcases isRun_append_iff.mp isRun with ⟨nonempty, runs⟩
    rw [wordAt?_of_isBetween isBetween runs, if_neg nonempty, ← whole, String.ofList_toList,
      String.length_toList, onLine, ← stands.range]

/-- The word at a place of a document: none if the place is outside the text or has no character of a word
beside it, and otherwise the longest run on the line that it touches, which every place that touches the
run has. -/
structure FindsWord (source : String) (position : Position) : Prop where
  none_iff : wordAt? source position = none ↔
    ∀ before after, position.IsBetween source before after → Apart before after
  found : ∀ word, wordAt? source position = some word →
    (∃ line before after, word.StandsOn source line before after) ∧ position.Touches word.range ∧
      ∀ other : Position, other.Touches word.range → wordAt? source other = some word

theorem findsWord (source : String) (position : Position) : FindsWord source position where
  none_iff := wordAt?_eq_none_iff
  found word isWord := by
    rcases wordAt?_eq_some_iff.mp isWord with ⟨line, before, after, stands, touches⟩
    exact ⟨⟨line, before, after, stands⟩, touches,
      fun _ touchesToo => wordAt?_eq_some_iff.mpr ⟨line, before, after, stands, touchesToo⟩⟩

end Words

section Explanations

/-- How the commands are written and what they do, as users are told. -/
inductive IsTold : Keyword → (usage description : String) → Prop where
  | background : IsTold .background "background \"<color>\";" "Set the background color of the scene"
  | circle : IsTold .circle "circle at(x, y) radius r fill \"<color>\";" "Draw a filled circle of dots"
  | rect : IsTold .rect "rect at(x, y) width w height h fill \"<color>\";"
      "Draw a filled rectangle of blocks"
  | text : IsTold .text "text \"<text>\" at(x, y) size n color \"<color>\";"
      "Draw large figlet text; sizes above 15 use the large font"
  | line : IsTold .line "line from(x1, y1) to(x2, y2) color \"<color>\";"
      "Draw a straight line between two points"
  | animate : IsTold .animate "animate \x7b frame \x7b ... \x7d ... \x7d for ms;"
      "Play the frames inside the block, spreading them over ms milliseconds"
  | var : IsTold .var "var name = value;" "Declare a numeric variable"
  | rainbow : IsTold .rainbow "rainbow \"<text>\" at(x, y) duration steps;"
      "Show text with a moving rainbow, one hue shift per step"
  | wait : IsTold .wait "wait ms;" "Pause for ms milliseconds"
  | frame : IsTold .frame "frame \x7b ... \x7d"
      "Render the block into its own frame; frames loop once the program ends"

/-- A text that explains a command: the word in bold, how the command is written between fences, and
what it does. -/
def Explains (keyword : Keyword) (text : String) : Prop :=
  ∃ usage description, IsTold keyword usage description ∧
    text = "\n".intercalate
      ["**" ++ keyword.word ++ "**", "", "```", usage, "```", "", description]

theorem isTold (keyword : Keyword) : IsTold keyword keyword.usage keyword.description := by
  cases keyword <;> constructor

theorem explains_commandHelp (keyword : Keyword) : Explains keyword (commandHelp keyword) := by
  refine ⟨keyword.usage, keyword.description, isTold keyword, ?_⟩
  simp [commandHelp, String.intercalate_cons_cons, String.ext_iff]

theorem hover?_of_keyword {source : String} {position : Position} {keyword : Keyword} {range : TextRange}
    (found : wordAt? source position = some ⟨keyword.word, range⟩) :
    hover? source position = some ⟨commandHelp keyword, range⟩ := by
  simp [hover?, found, wordHelp?, Keyword.ofWord?_word]

end Explanations

section Identifiers

variable {source text : String} {before rest : List Char} {filename : Option String}

/-- The characters of identifiers are letters, digits and underscores of ASCII. -/
theorem isWordCharacter_of_isAlphanum {char : Char} (alphanum : char.isAlphanum = true) :
    isWordCharacter char = true := by
  have isMember : ∀ point < 0x7b,
      (0x30 ≤ point ∧ point ≤ 0x39) ∨ (0x41 ≤ point ∧ point ≤ 0x5a) ∨ 0x61 ≤ point →
        CharSet.insideAfter point alphanumerics.changes false = true := by
    decide +kernel
  rw [isWordCharacter, isAlphanumeric, CharSet.contains]
  rcases (Bool.or_eq_true _ _).mp alphanum with isAlpha | isDigit
  · have letters := toNat_of_isAlpha isAlpha
    rw [isMember _ (by omega) (by omega), Bool.true_or]
  · have digits := toNat_of_isDigit isDigit
    rw [isMember _ (by omega) (by omega), Bool.true_or]

theorem isWordCharacter_of_identifier {chars : List Char} (full : Matches .identifier chars) :
    ∀ char ∈ chars, isWordCharacter char = true := by
  cases full with
  | identifier starts continues =>
      refine List.forall_mem_cons.mpr
        ⟨isWordCharacter_of_isAlphanum (by simp [Char.isAlphanum, starts]), fun char inside => ?_⟩
      rcases continues char inside with alphanum | rfl
      · exact isWordCharacter_of_isAlphanum alphanum
      · simp [isWordCharacter]

theorem newline_not_mem_identifier {chars : List Char} (full : Matches .identifier chars) :
    '\n' ∉ chars := by
  intro newline
  exact absurd (isWordCharacter_of_identifier full _ newline) (by decide +kernel)

/-- An identifier with no further characters of words beside it stands as a word on its line. -/
theorem standsOn_of_placed (split : source.toList = before ++ text.toList ++ rest)
    (only : ∀ char ∈ source.toList, isLineBreak char = true → char = '\n')
    (full : Matches .identifier text.toList) (apart : Apart before rest) :
    Word.StandsOn source ⟨text, ⟨.after before, .after (before ++ text.toList)⟩⟩ (before.count '\n')
      (lineSoFar before) (rest.takeWhile (· ≠ '\n')) where
  isLine := by
    have inLine : ∀ char ∈ text.toList, decide (char ≠ '\n') = true := by
      intro char inside
      simpa using ne_of_mem_of_not_mem inside (newline_not_mem_identifier full)
    refine getElem?_textLines_of_newlineParts only (by simp [full.ne_nil]) ?_
    rw [split, List.append_assoc, getElem?_newlineParts, List.takeWhile_append_of_pos inLine,
      List.append_assoc]
  isRun := ⟨full.ne_nil, isWordCharacter_of_identifier full, apart.onLine⟩
  range := by
    rw [(Position.after_append_eq_iff before).mpr (newline_not_mem_identifier full), Position.after_eq,
      String.length_toList]
    rfl

/-- A token that is the word at every place that touches it. Where it is spelled as the first word of a
command, it is explained there. -/
structure ShowsToken (source : String) (token : Token) (range : TextRange) : Prop where
  covers : token.Covers range
  onLine : range = .onLine range.start.line range.start.character token.text.length
  isWord : ∀ position : Position, position.Touches range →
    wordAt? source position = some ⟨token.text, range⟩
  explained : ∀ keyword : Keyword, token.text = keyword.word → ∃ text, Explains keyword text ∧
    ∀ position : Position, position.Touches range → hover? source position = some ⟨text, range⟩

theorem showsToken_of_placed {kind : TokenKind} (split : source.toList = before ++ text.toList ++ rest)
    (only : ∀ char ∈ source.toList, isLineBreak char = true → char = '\n')
    (full : Matches .identifier text.toList) (apart : Apart before rest) :
    ShowsToken source ⟨kind, text, some (placeAfter before filename)⟩
      ⟨.after before, .after (before ++ text.toList)⟩ := by
  have stands := standsOn_of_placed split only full apart
  have found : ∀ position : Position,
      position.Touches ⟨.after before, .after (before ++ text.toList)⟩ →
        wordAt? source position = some ⟨text, ⟨.after before, .after (before ++ text.toList)⟩⟩ :=
    fun position touches => wordAt?_eq_some_iff.mpr ⟨_, _, _, stands, touches⟩
  constructor
  case covers => exact Token.covers_placed full.ne_nil
  case onLine => simpa [Position.after_eq] using stands.range
  case isWord => exact found
  case explained =>
    rintro keyword rfl
    refine ⟨commandHelp keyword, explains_commandHelp keyword, ?_⟩
    intro position touches
    exact hover?_of_keyword (found position touches)

end Identifiers

/-- At every place the longest run that touches it is found. In a program with no line breaks but newlines,
every identifier that has no further characters of words beside it is found at all of its places. -/
theorem wordAt_touching (source : String) :
    (∀ position, FindsWord source position) ∧
      ∀ filename tokens, tokensOf source filename = .ok tokens →
        (∀ char ∈ source.toList, isLineBreak char = true → char = '\n') →
        ∀ token ∈ tokens, token.kind = .identifier →
          Apart (source.toList.take token.start) (source.toList.drop token.stop) →
          ∃ range, ShowsToken source token range := by
  refine ⟨findsWord source, fun filename tokens read only token isToken isIdentifier apart => ?_⟩
  rcases (tiled_of_tokensOf read).placedIn token isToken with ⟨⟨-, full⟩, before, rest, split, isPlaced⟩
  rcases token with ⟨kind, text, location⟩
  simp only at split isPlaced isIdentifier full
  subst isPlaced isIdentifier
  have starts : source.toList.take before.length = before := by
    rw [split, List.append_assoc, List.take_left]
  have stops : source.toList.drop (before.length + text.length) = rest := by
    rw [split, ← String.length_toList, ← List.length_append, List.drop_left]
  rw [Token.start_placed, Token.stop_placed, starts, stops] at apart
  exact ⟨_, showsToken_of_placed split only full apart⟩

/-- The second of two commands, at the start of its line. -/
theorem wordAt_touching_wait :
    ∃ token tokens, tokensOf "wait 5;\nwait 7;" none = .ok tokens ∧ token ∈ tokens ∧
      token.startPosition = some ⟨1, 0⟩ ∧
      ShowsToken "wait 5;\nwait 7;" token ⟨⟨1, 0⟩, ⟨1, 4⟩⟩ ∧
      hover? "wait 5;\nwait 7;" ⟨1, 4⟩ =
        some ⟨"**wait**\n\n```\nwait ms;\n```\n\nPause for ms milliseconds", ⟨⟨1, 0⟩, ⟨1, 4⟩⟩⟩ := by
  let token : Token := ⟨.identifier, "wait", some ⟨2, 1, 8, none⟩⟩
  obtain ⟨tokens, read, isToken⟩ :
      ∃ tokens, tokensOf "wait 5;\nwait 7;" none = .ok tokens ∧ token ∈ tokens :=
    ⟨_, by cbv, by decide⟩
  have apart : Apart ("wait 5;\nwait 7;".toList.take token.start)
      ("wait 5;\nwait 7;".toList.drop token.stop) := by
    rw [show token.start = 8 by decide, show token.stop = 12 by decide]
    exact ⟨by simp [show isWordCharacter '\n' = false by decide],
      by simp [show isWordCharacter ' ' = false by decide]⟩
  obtain ⟨range, shows⟩ := (wordAt_touching "wait 5;\nwait 7;").2 none tokens read
    (by simp [isLineBreak]) token isToken rfl apart
  have isRange : range = ⟨⟨1, 0⟩, ⟨1, 4⟩⟩ :=
    shows.covers.unique ⟨rfl, by decide +kernel, Position.lt_def.mpr (.inr (by decide))⟩
  subst isRange
  rcases shows.explained .wait rfl with ⟨text, ⟨usage, description, told, isText⟩, explained⟩
  cases told
  have isHelp : text = "**wait**\n\n```\nwait ms;\n```\n\nPause for ms milliseconds" := by
    rw [isText]
    decide
  exact ⟨token, tokens, read, isToken, rfl, shows,
    isHelp ▸ explained ⟨1, 4⟩ ⟨rfl, rfl, by decide, by decide⟩⟩

/-- A numeral right before an identifier belongs to the word there. -/
example : wordAt? "2line" ⟨0, 3⟩ = some ⟨"2line", .onLine 0 0 5⟩ := by decide +kernel

end Editor

end TermScene
