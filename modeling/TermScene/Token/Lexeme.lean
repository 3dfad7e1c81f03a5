import TermScene.Text.Blank
import TermScene.Token

/-!
# Lexemes

A lexeme is the leading piece of a text that makes up a token, a run of blanks or a comment. Its first
character, or its first two, settles its kind:

* a numeral is a run of digits with an optional point and further digits;
* a string runs from a quote to the next one and may span lines;
* an identifier is a letter followed by letters, digits and underscores;
* a comment runs from two slashes to the end of the line;
* every other lexeme is one punctuation mark, or an arrow.
-/

namespace TermScene

/-- The leading lexeme of a text, and the text that follows it. -/
structure Lexeme where
  kind : TokenKind
  chars : List Char
  rest : List Char
  deriving DecidableEq, Repr

namespace Lexeme

/-- Whether a character may continue an identifier. -/
def continuesIdentifier (char : Char) : Bool := char.isAlphanum || char == '_'

def punctuation? : Char → Option TokenKind
  | '(' => some .leftParen
  | ')' => some .rightParen
  | '\x7b' => some .leftBrace
  | '\x7d' => some .rightBrace
  | '[' => some .leftBracket
  | ']' => some .rightBracket
  | ';' => some .semicolon
  | ',' => some .comma
  | '=' => some .assign
  | _ => none

/-- The longest leading run of characters of a class, as a lexeme. -/
def run (kind : TokenKind) (member : Char → Bool) (chars : List Char) : Lexeme :=
  ⟨kind, chars.takeWhile member, chars.dropWhile member⟩

/-- The leading numeral. A point belongs to it only if a digit follows. -/
def numeral (chars : List Char) : Lexeme :=
  let whole := run .number Char.isDigit chars
  match whole.rest with
  | '.' :: digit :: later =>
      if digit.isDigit then
        let fraction := run .number Char.isDigit (digit :: later)
        ⟨.number, whole.chars ++ '.' :: fraction.chars, fraction.rest⟩
      else whole
  | _ => whole

/-- The string whose opening quote comes before a text, if it is closed. -/
def string? (afterQuote : List Char) : Option Lexeme :=
  let body := run .string (· ≠ '"') afterQuote
  match body.rest with
  | quote :: later => some ⟨.string, '"' :: body.chars ++ [quote], later⟩
  | [] => none

def first? : List Char → Option Lexeme
  | [] => none
  | char :: rest =>
      if char.isDigit then some (numeral (char :: rest))
      else if char = '"' then string? rest
      else if char.isAlpha then some (run .identifier continuesIdentifier (char :: rest))
      else if let some kind := punctuation? char then some ⟨kind, [char], rest⟩
      else if isBlank char then some (run .whitespace isBlank (char :: rest))
      else
        match char, rest with
        | '/', '/' :: _ => some (run .comment (· ≠ '\n') (char :: rest))
        | '-', '>' :: later => some ⟨.arrow, ['-', '>'], later⟩
        | _, _ => none

@[simp]
theorem run_append (kind : TokenKind) (member : Char → Bool) (chars : List Char) :
    (run kind member chars).chars ++ (run kind member chars).rest = chars :=
  List.takeWhile_append_dropWhile

theorem run_ne_nil (kind : TokenKind) (member : Char → Bool) (char : Char) (rest : List Char)
    (belongs : member char = true) : (run kind member (char :: rest)).chars ≠ [] := by
  simp [run, belongs]

theorem numeral_append (chars : List Char) : (numeral chars).chars ++ (numeral chars).rest = chars := by
  have whole := run_append .number Char.isDigit chars
  simp only [numeral]
  split
  · rename_i digit later found
    split
    · have fraction := run_append .number Char.isDigit (digit :: later)
      simp only [List.append_assoc, List.cons_append, fraction]
      rw [← found]
      exact whole
    · exact whole
  · exact whole

theorem numeral_ne_nil (char : Char) (rest : List Char) (digit : char.isDigit = true) :
    (numeral (char :: rest)).chars ≠ [] := by
  have whole := run_ne_nil .number Char.isDigit char rest digit
  simp only [numeral]
  split
  · split
    · simp
    · exact whole
  · exact whole

theorem string?_append {afterQuote : List Char} {lexeme : Lexeme}
    (found : string? afterQuote = some lexeme) :
    lexeme.chars ++ lexeme.rest = '"' :: afterQuote := by
  have body := run_append .string (fun char => decide (char ≠ '"')) afterQuote
  simp only [string?] at found
  split at found
  · rename_i quote later after
    simp only [Option.some.injEq] at found
    subst found
    rw [after] at body
    simpa using body
  · simp at found

theorem string?_ne_nil {afterQuote : List Char} {lexeme : Lexeme}
    (found : string? afterQuote = some lexeme) : lexeme.chars ≠ [] := by
  simp only [string?] at found
  split at found
  · simp only [Option.some.injEq] at found
    subst found
    simp
  · simp at found

theorem first?_split {chars : List Char} {lexeme : Lexeme} (found : first? chars = some lexeme) :
    lexeme.chars ++ lexeme.rest = chars ∧ lexeme.chars ≠ [] := by
  unfold first? at found
  split at found
  · simp at found
  · rename_i char rest
    split at found
    · rename_i digit
      simp only [Option.some.injEq] at found
      subst found
      exact ⟨numeral_append _, numeral_ne_nil _ _ digit⟩
    · split at found
      · rename_i quote
        subst quote
        exact ⟨string?_append found, string?_ne_nil found⟩
      · split at found
        · rename_i letter
          simp only [Option.some.injEq] at found
          subst found
          refine ⟨run_append .., run_ne_nil _ _ _ _ ?_⟩
          simp [continuesIdentifier, Char.isAlphanum, letter]
        · split at found
          · simp only [Option.some.injEq] at found
            subst found
            simp
          · split at found
            · rename_i blank
              simp only [Option.some.injEq] at found
              subst found
              exact ⟨run_append .., run_ne_nil _ _ _ _ blank⟩
            · split at found
              · simp only [Option.some.injEq] at found
                subst found
                exact ⟨run_append .., run_ne_nil _ _ _ _ (by decide)⟩
              · simp only [Option.some.injEq] at found
                subst found
                simp
              · simp at found

theorem first?_rest_length {chars : List Char} {lexeme : Lexeme}
    (found : first? chars = some lexeme) : lexeme.rest.length < chars.length := by
  obtain ⟨split, nonempty⟩ := first?_split found
  have := List.length_pos_iff.mpr nonempty
  rw [← split, List.length_append]
  omega

end Lexeme

end TermScene
