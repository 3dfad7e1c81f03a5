import Mathlib
import TermScene.Proofs.Token.Pattern
import TermScene.Proofs.Token.Place

/-!
# Tokens tile a program

Where the tokens of a program can be read, its text is tiled by them and by the spacing between them:
nothing is lost and nothing counted twice. `Tiled` says so by recursion along the text, and the
statements about offsets, gaps and places are read off it. The invariant that carries the recursion is
that the cursor is the place just after the text that was passed.
-/

namespace TermScene

/-- Blanks and comments. A comment runs to the end of its line, or to the end of the text where the
spacing ends the text. -/
inductive Spacing (atEnd : Bool) : List Char → Prop where
  | nil : Spacing atEnd []
  | blank {char : Char} {rest : List Char} (isBlank : isBlank char = true)
      (more : Spacing atEnd rest) : Spacing atEnd (char :: rest)
  | comment {body rest : List Char} (line : '\n' ∉ body) (more : Spacing atEnd rest) :
      Spacing atEnd ('/' :: '/' :: body ++ '\n' :: rest)
  | lastComment {body : List Char} (isLast : atEnd = true) (line : '\n' ∉ body) :
      Spacing atEnd ('/' :: '/' :: body)

/-- Tokens that a text, which comes after another one, is made up of, but for spacing. -/
inductive Tiled (filename : Option String) : List Char → List Char → List Token → Prop where
  | spacing {before gap : List Char} (isSpacing : Spacing true gap) : Tiled filename before gap []
  | token {before gap chars rest : List Char} {kind : TokenKind} {tokens : List Token}
      (isSpacing : Spacing false gap) (kept : kind.IsEmitted) (full : Matches kind chars)
      (more : Tiled filename (before ++ gap ++ chars) rest tokens) :
      Tiled filename before (gap ++ chars ++ rest)
        (⟨kind, String.ofList chars, some (placeAfter (before ++ gap) filename)⟩ :: tokens)

namespace Spacing

variable {atEnd : Bool}

theorem blanks_append {blanks gap : List Char} (isBlanks : ∀ char ∈ blanks, isBlank char = true)
    (more : Spacing atEnd gap) : Spacing atEnd (blanks ++ gap) := by
  induction blanks with
  | nil => exact more
  | cons char rest ih =>
      exact .blank (isBlanks char (by simp)) (ih fun later inRest => isBlanks later (by simp [inRest]))

/-- A comment may come before spacing that begins with the newline that ends the comment. -/
theorem comment_append {body gap : List Char} (line : '\n' ∉ body)
    (more : Spacing atEnd ('\n' :: gap)) : Spacing atEnd ('/' :: '/' :: body ++ '\n' :: gap) := by
  generalize shape : '\n' :: gap = whole at more
  cases more with
  | blank isBlank more =>
      simp only [List.cons.injEq] at shape
      rw [← shape.1]
      exact .comment line more
  | _ => simp at shape

end Spacing

namespace Tiled

variable {filename : Option String} {before rest : List Char} {tokens : List Token}

theorem blanks_append {blanks : List Char} (isBlanks : ∀ char ∈ blanks, isBlank char = true)
    (more : Tiled filename (before ++ blanks) rest tokens) :
    Tiled filename before (blanks ++ rest) tokens := by
  cases more with
  | spacing isSpacing => exact .spacing (isSpacing.blanks_append isBlanks)
  | token isSpacing kept full more =>
      have tiled : Tiled filename before _ _ :=
        .token (isSpacing.blanks_append isBlanks) kept full (by simpa using more)
      simpa using tiled

theorem comment_append {body : List Char} (line : '\n' ∉ body)
    (ends : ∀ char ∈ rest.head?, char = '\n')
    (more : Tiled filename (before ++ '/' :: '/' :: body) rest tokens) :
    Tiled filename before ('/' :: '/' :: body ++ rest) tokens := by
  cases more with
  | spacing isSpacing =>
      rcases rest with _ | ⟨newline, gap⟩
      · have tiled : Tiled filename before _ _ := .spacing (.lastComment rfl line)
        simpa using tiled
      · have := ends newline rfl
        subst this
        exact .spacing (isSpacing.comment_append line)
  | @token _ gap chars rest kind tokens isSpacing kept full more =>
      rcases gap with _ | ⟨newline, gap⟩
      · rcases chars with _ | ⟨first, later⟩
        · exact absurd rfl full.ne_nil
        · have := ends first rfl
          subst this
          exact absurd (full.first_not_blank kept.1) (by decide)
      · have := ends newline rfl
        subst this
        have tiled : Tiled filename before _ _ :=
          .token (isSpacing.comment_append line) kept full (by simpa using more)
        simpa using tiled

end Tiled

theorem Matches.isEmitted {kind : TokenKind} {chars : List Char} (full : Matches kind chars)
    (kept : kind.isKept = true) : kind.IsEmitted := by
  refine ⟨kept, ?_⟩
  rintro rfl
  cases full

/-- Reading a text to its end tiles it, and the cursor stands after it. -/
theorem scan_tiled {filename : Option String} {before chars : List Char} {cursor : Cursor}
    (place : cursor = Cursor.start.advance before) (whole : (scan filename cursor chars).rest = []) :
    Tiled filename before chars (scan filename cursor chars).tokens ∧
      (scan filename cursor chars).cursor = Cursor.start.advance (before ++ chars) := by
  fun_induction scan filename cursor chars generalizing before with
  | case1 cursor chars found =>
      simp only at whole
      subst whole place
      exact ⟨.spacing .nil, by simp⟩
  | case2 cursor chars lexeme found later kept =>
      rename_i ih
      have full := Lexeme.first?_matches found
      have split := (Lexeme.first?_split found).1
      subst place
      rcases ih (Cursor.advance_append _ before _).symm whole with ⟨tiled, final⟩
      refine ⟨?_, by rw [final, List.append_assoc, split]⟩
      have token : Tiled filename before _ _ :=
        .token .nil (full.isEmitted kept) full (by simpa using tiled)
      simpa [split, Cursor.start_advance_location, later] using token
  | case3 cursor chars lexeme found later skipped =>
      rename_i ih
      have full := Lexeme.first?_matches found
      have split := (Lexeme.first?_split found).1
      have ends := Lexeme.first?_ends found
      subst place
      rcases ih (Cursor.advance_append _ before _).symm whole with ⟨tiled, final⟩
      refine ⟨?_, by rw [final, List.append_assoc, split]⟩
      rw [← split]
      rcases lexeme with ⟨kind, text, rest⟩
      cases full with
      | whitespace nonempty blanks => exact tiled.blanks_append blanks
      | comment line => exact tiled.comment_append line (ends (by simp))
      | _ => exact absurd rfl skipped

theorem tiled_of_tokensOf {source : String} {filename : Option String} {tokens : List Token}
    (read : tokensOf source filename = .ok tokens) : Tiled filename [] source.toList tokens := by
  simp only [tokensOf, Lexer.tokenize, Lexer.ofSource] at read
  split at read
  · rename_i atEnd
    simp only [Except.ok.injEq] at read
    have start : Cursor.start = Cursor.start.advance [] := rfl
    rw [← read]
    exact (scan_tiled start atEnd).1
  · simp at read

namespace Token

/-- The offset at which a token starts. -/
def start (token : Token) : Nat := (token.location.map fun location => location.offset.toNat).getD 0

/-- The offset just past the text of a token. -/
def stop (token : Token) : Nat := token.start + token.text.length

variable {kind : TokenKind} {text : String} {before : List Char} {filename : Option String}

@[simp]
theorem start_placed : start ⟨kind, text, some (placeAfter before filename)⟩ = before.length := by
  simp [start, placeAfter]

@[simp]
theorem stop_placed :
    stop ⟨kind, text, some (placeAfter before filename)⟩ = before.length + text.length := by
  simp [stop]

end Token

/-- The part of a text between two offsets. -/
def between (source : List Char) (first stop : Nat) : List Char := (source.take stop).drop first

theorem between_append (before part after : List Char) :
    between (before ++ part ++ after) before.length (before.length + part.length) = part := by
  rw [between, ← List.length_append, List.take_left, List.drop_left]

/-- Where the spacing behind some tokens starts: past the last of them, if there is one. -/
def stopOfLast (base : Nat) (tokens : List Token) : Nat :=
  (tokens.getLast?.map Token.stop).getD base

theorem stopOfLast_cons (base : Nat) (token : Token) (later : List Token) :
    stopOfLast base (token :: later) = stopOfLast token.stop later := by
  cases last : later.getLast? <;> simp [stopOfLast, List.getLast?_cons, last]

/-- Where the spacing before some tokens ends: at the first of them, if there is one. -/
def startOfFirst (finish : Nat) (tokens : List Token) : Nat :=
  (tokens.head?.map Token.start).getD finish

/-- Tokens that tile a text: they come in order without overlapping, each has the text that stands at
its offset and is the place after the text before it, and all between them is spacing. -/
structure IsTiling (source : List Char) (filename : Option String) (tokens : List Token) : Prop where
  lexemes : Lexemes tokens
  ordered : tokens.Pairwise fun earlier later =>
    earlier.start < later.start ∧ earlier.stop ≤ later.start
  texts : ∀ token ∈ tokens, between source token.start token.stop = token.text.toList
  places : ∀ token ∈ tokens,
    token.location = some (placeAfter (source.take token.start) filename)
  gaps : ∀ front back, tokens = front ++ back →
    Spacing back.isEmpty
      (between source (stopOfLast 0 front) (startOfFirst source.length back))

namespace Tiled

variable {filename : Option String} {before chars : List Char} {tokens : List Token}

theorem lexemes (tiled : Tiled filename before chars tokens) : Lexemes tokens := by
  induction tiled with
  | spacing isSpacing => simp [Lexemes]
  | token isSpacing kept full more ih => exact ih.cons ⟨kept, by simpa using full⟩

theorem start_ge (tiled : Tiled filename before chars tokens) :
    ∀ token ∈ tokens, before.length ≤ token.start := by
  induction tiled with
  | spacing isSpacing => simp
  | token isSpacing kept full more ih =>
      intro token isToken
      rcases List.mem_cons.mp isToken with rfl | isLater
      · simp
      · have := ih token isLater
        simp only [List.length_append] at this
        omega

theorem ordered (tiled : Tiled filename before chars tokens) :
    tokens.Pairwise fun earlier later =>
      earlier.start < later.start ∧ earlier.stop ≤ later.start := by
  induction tiled with
  | spacing isSpacing => exact .nil
  | token isSpacing kept full more ih =>
      refine .cons ?_ ih
      intro later isLater
      have past := more.start_ge later isLater
      have nonempty := List.length_pos_iff.mpr full.ne_nil
      simp only [Token.start_placed, Token.stop_placed, List.length_append,
        String.length_ofList] at past ⊢
      omega

theorem texts (tiled : Tiled filename before chars tokens) :
    ∀ token ∈ tokens, between (before ++ chars) token.start token.stop = token.text.toList := by
  induction tiled with
  | spacing isSpacing => simp
  | @token before gap chars rest kind tokens isSpacing kept full more ih =>
      intro token isToken
      rcases List.mem_cons.mp isToken with rfl | isLater
      · simpa using between_append (before ++ gap) chars rest
      · simpa using ih token isLater

theorem places (tiled : Tiled filename before chars tokens) :
    ∀ token ∈ tokens,
      token.location = some (placeAfter ((before ++ chars).take token.start) filename) := by
  induction tiled with
  | spacing isSpacing => simp
  | @token before gap chars rest kind tokens isSpacing kept full more ih =>
      intro token isToken
      rcases List.mem_cons.mp isToken with rfl | isLater
      · have cut : before ++ (gap ++ chars ++ rest) = (before ++ gap) ++ (chars ++ rest) := by simp
        rw [Token.start_placed, cut, List.take_left]
      · simpa using ih token isLater

theorem gaps (tiled : Tiled filename before chars tokens) :
    ∀ front back, tokens = front ++ back →
      Spacing back.isEmpty
        (between (before ++ chars) (stopOfLast before.length front)
          (startOfFirst (before ++ chars).length back)) := by
  induction tiled with
  | @spacing before gap isSpacing =>
      intro front back split
      rcases List.append_eq_nil_iff.mp split.symm with ⟨rfl, rfl⟩
      have cut := between_append before gap []
      rw [List.append_nil] at cut
      simpa [stopOfLast, startOfFirst, cut] using isSpacing
  | @token before gap chars rest kind tokens isSpacing kept full more ih =>
      intro front back split
      rcases front with _ | ⟨first, front⟩
      · simp only [List.nil_append] at split
        subst split
        have cut := between_append before gap (chars ++ rest)
        simp only [List.append_assoc] at cut
        simpa [stopOfLast, startOfFirst, cut] using isSpacing
      · simp only [List.cons_append, List.cons.injEq] at split
        rcases split with ⟨rfl, split⟩
        rw [stopOfLast_cons]
        simpa [Nat.add_assoc] using ih front back split

end Tiled

/-- Reading the tokens of a program to its end loses nothing: the tokens tile the text. The cursor then
stands in the place after the whole text, where the end of a nonempty program is placed too. -/
theorem tokenize_tiles {source : String} {filename : Option String} {tokens : List Token}
    {after : Lexer} (read : (Lexer.ofSource source filename).tokenize = (.ok tokens, after)) :
    IsTiling source.toList filename tokens ∧
      after.cursor =
        ⟨lineAfter source.toList, columnAfter source.toList, source.toList.length⟩ ∧
      (source ≠ "" → ∀ name,
        (Parser.ofTokens tokens source name).finish.location =
          some (after.cursor.location (some name))) := by
  have whole : (scan filename .start source.toList).rest = [] ∧
      (scan filename .start source.toList).tokens = tokens ∧
      (scan filename .start source.toList).cursor = after.cursor := by
    simp only [Lexer.tokenize, Lexer.ofSource] at read
    split at read
    · rename_i atEnd
      simp only [Prod.mk.injEq, Except.ok.injEq] at read
      exact ⟨atEnd, read.1, by rw [← read.2]⟩
    · simp at read
  rcases whole with ⟨atEnd, rfl, isCursor⟩
  have start : Cursor.start = Cursor.start.advance [] := rfl
  rcases scan_tiled start atEnd with ⟨tiled, final⟩
  rw [isCursor, List.nil_append] at final
  refine ⟨⟨tiled.lexemes, tiled.ordered, ?_, ?_, ?_⟩, ?_, ?_⟩
  · simpa using tiled.texts
  · simpa using tiled.places
  · simpa using tiled.gaps
  · rw [final, Cursor.start_advance]
  · intro nonempty name
    rw [final, Cursor.start_advance_location]
    exact Parser.finishLocation_of_source nonempty _ name

/-- A string over two lines between comments. -/
theorem tokenize_tiles_lines :
    ∃ tokens after,
      (Lexer.ofSource "a// \"\n\"x\ny\" 1.5->//" none).tokenize = (.ok tokens, after) ∧
        tokens.map Token.text = ["a", "\"x\ny\"", "1.5", "->"] ∧
        IsTiling "a// \"\n\"x\ny\" 1.5->//".toList none tokens := by
  let source := "a// \"\n\"x\ny\" 1.5->//"
  have read : ∃ tokens after, (Lexer.ofSource source none).tokenize = (.ok tokens, after) ∧
      tokens.map Token.text = ["a", "\"x\ny\"", "1.5", "->"] := ⟨_, _, by cbv, rfl⟩
  rcases read with ⟨tokens, after, read, texts⟩
  exact ⟨tokens, after, read, texts, (tokenize_tiles read).1⟩

end TermScene
