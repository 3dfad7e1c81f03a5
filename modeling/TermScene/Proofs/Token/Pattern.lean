import Mathlib.Data.List.TakeWhile
import TermScene.Token.Lexer

/-!
# The patterns of lexemes

Every kind of lexeme has a pattern, the set of texts that it may have. The leading lexeme of a text
matches the pattern of its kind. Conversely a text that matches a pattern is the leading lexeme of every
text that begins with it, as long as what follows cannot continue it: a digit or a point after a
numeral, a letter, a digit or an underscore after an identifier, a blank after a run of blanks, and
anything but a newline after a comment.
-/

namespace TermScene

/-- At least one decimal digit. -/
structure IsDigits (chars : List Char) : Prop where
  nonempty : chars ≠ []
  digits : ∀ char ∈ chars, char.isDigit = true

/-- Digits, or digits on both sides of a point. -/
inductive IsNumeral : List Char → Prop where
  | whole {digits : List Char} (isWhole : IsDigits digits) : IsNumeral digits
  | decimal {whole fraction : List Char} (isWhole : IsDigits whole)
      (isFraction : IsDigits fraction) : IsNumeral (whole ++ '.' :: fraction)

namespace IsNumeral

variable {chars : List Char}

theorem first_isDigit (isNumeral : IsNumeral chars) :
    ∃ first later, chars = first :: later ∧ first.isDigit = true := by
  cases isNumeral with
  | whole isWhole =>
      rcases chars with _ | ⟨first, later⟩
      · exact absurd rfl isWhole.nonempty
      · exact ⟨first, later, rfl, isWhole.digits first (by simp)⟩
  | @decimal whole fraction isWhole isFraction =>
      rcases whole with _ | ⟨first, later⟩
      · exact absurd rfl isWhole.nonempty
      · exact ⟨first, later ++ '.' :: fraction, rfl, isWhole.digits first (by simp)⟩

theorem last_isDigit (isNumeral : IsNumeral chars) : ∀ char ∈ chars.getLast?, char.isDigit = true := by
  intro char isLast
  cases isNumeral with
  | whole isWhole => exact isWhole.digits char (List.mem_of_getLast? isLast)
  | @decimal whole fraction isWhole isFraction =>
      have inFraction : char ∈ fraction.getLast? := by
        rcases fraction with _ | ⟨first, later⟩
        · exact absurd rfl isFraction.nonempty
        · simpa [List.getLast?_append, List.getLast?_cons] using isLast
      exact isFraction.digits char (List.mem_of_getLast? inFraction)

theorem mem_isDigit (isNumeral : IsNumeral chars) :
    ∀ char ∈ chars, char.isDigit = true ∨ char = '.' := by
  intro char inside
  cases isNumeral with
  | whole isWhole => exact .inl (isWhole.digits char inside)
  | decimal isWhole isFraction =>
      simp only [List.mem_append, List.mem_cons] at inside
      rcases inside with inWhole | isPoint | inFraction
      · exact .inl (isWhole.digits char inWhole)
      · exact .inr isPoint
      · exact .inl (isFraction.digits char inFraction)

end IsNumeral

/-- The texts that lexemes of each kind may have. -/
inductive Matches : TokenKind → List Char → Prop where
  | number {chars : List Char} (numeral : IsNumeral chars) : Matches .number chars
  | string {body : List Char} (closed : '"' ∉ body) : Matches .string ('"' :: body ++ ['"'])
  | identifier {letter : Char} {later : List Char} (starts : letter.isAlpha = true)
      (continues : ∀ char ∈ later, char.isAlphanum = true ∨ char = '_') :
      Matches .identifier (letter :: later)
  | leftParen : Matches .leftParen ['(']
  | rightParen : Matches .rightParen [')']
  | leftBrace : Matches .leftBrace ['\x7b']
  | rightBrace : Matches .rightBrace ['\x7d']
  | leftBracket : Matches .leftBracket ['[']
  | rightBracket : Matches .rightBracket [']']
  | semicolon : Matches .semicolon [';']
  | comma : Matches .comma [',']
  | assign : Matches .assign ['=']
  | arrow : Matches .arrow ['-', '>']
  | whitespace {chars : List Char} (nonempty : chars ≠ [])
      (blanks : ∀ char ∈ chars, isBlank char = true) : Matches .whitespace chars
  | comment {body : List Char} (line : '\n' ∉ body) : Matches .comment ('/' :: '/' :: body)

/-- The kinds of the tokens that are kept: all but blanks, comments and the end of the program. -/
def TokenKind.IsEmitted (kind : TokenKind) : Prop :=
  kind.isKept = true ∧ kind ≠ .endOfFile

namespace Token

/-- A token of a kind that is kept, with a text of that kind. -/
def IsLexeme (token : Token) : Prop :=
  token.kind.IsEmitted ∧ Matches token.kind token.text.toList

end Token

/-- Whether tokens can be taken from the text of a program. -/
def Lexemes (tokens : List Token) : Prop := ∀ token ∈ tokens, token.IsLexeme

theorem Lexemes.cons {token : Token} {tokens : List Token} (lexeme : token.IsLexeme)
    (lexemes : Lexemes tokens) : Lexemes (token :: tokens) :=
  List.forall_mem_cons.mpr ⟨lexeme, lexemes⟩

theorem Lexemes.append {tokens later : List Token} (lexemes : Lexemes tokens)
    (lexemes' : Lexemes later) : Lexemes (tokens ++ later) :=
  List.forall_mem_append.mpr ⟨lexemes, lexemes'⟩

theorem Matches.ne_nil {kind : TokenKind} {chars : List Char} (full : Matches kind chars) :
    chars ≠ [] := by
  cases full with
  | number numeral =>
      rcases numeral.first_isDigit with ⟨first, later, rfl, _⟩
      simp
  | whitespace nonempty blanks => exact nonempty
  | _ => simp

section Blanks

variable {char : Char}

/-- The characters between the space and the last ASCII control are no blanks. -/
theorem isBlank_eq_false_of_visible (above : 0x21 ≤ char.toNat) (below : char.toNat < 0x7f) :
    isBlank char = false := by
  have tab : 0x9 ≤ char.toNat := by omega
  have shift : 0xe ≤ char.toNat := by omega
  have separator : 0x1c ≤ char.toNat := by omega
  have nextLine : ¬0x85 ≤ char.toNat := by omega
  simp [isBlank, blanks, CharSet.contains, CharSet.insideAfter, tab, shift, separator, above,
    nextLine]

theorem toNat_of_isDigit (digit : char.isDigit = true) : 0x30 ≤ char.toNat ∧ char.toNat ≤ 0x39 := by
  simp only [Char.isDigit, Bool.and_eq_true, decide_eq_true_eq, ge_iff_le,
    UInt32.le_iff_toNat_le] at digit
  exact digit

theorem toNat_of_isAlpha (alpha : char.isAlpha = true) :
    (0x41 ≤ char.toNat ∧ char.toNat ≤ 0x5a) ∨ (0x61 ≤ char.toNat ∧ char.toNat ≤ 0x7a) := by
  have inRange : (decide ('A'.val ≤ char.val ∧ char.val ≤ 'Z'.val) ||
      decide ('a'.val ≤ char.val) && decide (char.val ≤ 'z'.val)) = true := alpha
  simp only [Bool.or_eq_true, Bool.and_eq_true, decide_eq_true_eq,
    UInt32.le_iff_toNat_le] at inRange
  exact inRange

theorem isBlank_of_isDigit (digit : char.isDigit = true) : isBlank char = false := by
  have bounds := toNat_of_isDigit digit
  exact isBlank_eq_false_of_visible (by omega) (by omega)

theorem isBlank_of_isAlpha (alpha : char.isAlpha = true) : isBlank char = false := by
  have bounds := toNat_of_isAlpha alpha
  exact isBlank_eq_false_of_visible (by omega) (by omega)

theorem isDigit_of_isAlpha (alpha : char.isAlpha = true) : char.isDigit = false := by
  have letters := toNat_of_isAlpha alpha
  by_contra digit
  have digits := toNat_of_isDigit (by simpa using digit)
  omega

theorem isDigit_of_isBlank (blank : isBlank char = true) : char.isDigit = false := by
  by_contra digit
  simp [isBlank_of_isDigit (by simpa using digit)] at blank

theorem isAlpha_of_isBlank (blank : isBlank char = true) : char.isAlpha = false := by
  by_contra alpha
  simp [isBlank_of_isAlpha (by simpa using alpha)] at blank

end Blanks

/-- A lexeme that is kept does not start with a blank. -/
theorem Matches.first_not_blank {kind : TokenKind} {char : Char} {later : List Char}
    (full : Matches kind (char :: later)) (kept : kind.isKept = true) : isBlank char = false := by
  generalize shape : char :: later = chars at full
  cases full with
  | number numeral =>
      rcases numeral.first_isDigit with ⟨digit, digits, rfl, isDigit⟩
      simp only [List.cons.injEq] at shape
      rw [shape.1]
      exact isBlank_of_isDigit isDigit
  | identifier starts continues =>
      simp only [List.cons.injEq] at shape
      rw [shape.1]
      exact isBlank_of_isAlpha starts
  | whitespace nonempty blanks => simp [TokenKind.isKept] at kept
  | comment line => simp [TokenKind.isKept] at kept
  | _ =>
      simp only [List.cons_append, List.cons.injEq] at shape
      rw [shape.1]
      decide

/-- A lexeme that is kept and is no string has neither blanks nor quotes in it. -/
theorem Matches.visible {kind : TokenKind} {chars : List Char} (full : Matches kind chars)
    (kept : kind.isKept = true) (notString : kind ≠ .string) :
    ∀ char ∈ chars, isBlank char = false ∧ char ≠ '"' := by
  have isVisible {char : Char} (alphanum : char.isAlphanum = true) :
      isBlank char = false ∧ char ≠ '"' := by
    constructor
    · rcases (Bool.or_eq_true _ _).mp alphanum with isAlpha | isDigit
      · exact isBlank_of_isAlpha isAlpha
      · exact isBlank_of_isDigit isDigit
    · rintro rfl
      exact absurd alphanum (by decide)
  intro char inside
  cases full with
  | number numeral =>
      rcases numeral.mem_isDigit char inside with isDigit | rfl
      · exact isVisible (by simp [Char.isAlphanum, isDigit])
      · decide
  | string closed => exact absurd rfl notString
  | identifier starts continues =>
      rcases List.mem_cons.mp inside with rfl | inLater
      · exact isVisible (by simp [Char.isAlphanum, starts])
      · rcases continues char inLater with alphanum | rfl
        · exact isVisible alphanum
        · decide
  | whitespace nonempty blanks => exact absurd kept (by decide)
  | comment line => exact absurd kept (by decide)
  | arrow =>
      simp only [List.mem_cons, List.not_mem_nil, or_false] at inside
      rcases inside with rfl | rfl
      · decide
      · decide
  | _ =>
      rw [List.mem_singleton.mp inside]
      decide

namespace Lexeme

section Runs

variable {member : Char → Bool}

theorem mem_run {kind : TokenKind} {chars : List Char} :
    ∀ char ∈ (run kind member chars).chars, member char = true :=
  fun _ inRun => List.mem_takeWhile_imp inRun

theorem isDigits_run (kind : TokenKind) {char : Char} (later : List Char)
    (digit : char.isDigit = true) : IsDigits (run kind Char.isDigit (char :: later)).chars :=
  ⟨run_ne_nil _ _ _ _ digit, mem_run⟩

theorem run_stops (kind : TokenKind) (member : Char → Bool) (chars : List Char) :
    ∀ char ∈ (run kind member chars).rest.head?, member char = false := by
  intro char isNext
  have stop := List.head?_dropWhile_not member chars
  rw [Option.mem_def, run] at isNext
  rwa [isNext] at stop

/-- A run ends where the class does. -/
theorem run_append_eq {kind : TokenKind} {chars rest : List Char}
    (inside : ∀ char ∈ chars, member char = true)
    (outside : ∀ char ∈ rest.head?, member char = false) :
    run kind member (chars ++ rest) = ⟨kind, chars, rest⟩ := by
  have noMore : rest.takeWhile member = [] ∧ rest.dropWhile member = rest := by
    cases rest with
    | nil => simp
    | cons char later => simp [outside char (by simp)]
  simp [run, List.takeWhile_append_of_pos inside, List.dropWhile_append_of_pos inside, noMore]

end Runs

theorem numeral_matches {char : Char} {later : List Char} (digit : char.isDigit = true) :
    (numeral (char :: later)).kind = .number ∧ IsNumeral (numeral (char :: later)).chars := by
  have whole := isDigits_run .number later digit
  simp only [numeral]
  split
  · split
    · rename_i isDigit
      exact ⟨rfl, .decimal whole (isDigits_run _ _ isDigit)⟩
    · exact ⟨rfl, .whole whole⟩
  · exact ⟨rfl, .whole whole⟩

theorem string?_matches {afterQuote : List Char} {lexeme : Lexeme}
    (found : string? afterQuote = some lexeme) : Matches lexeme.kind lexeme.chars := by
  simp only [string?] at found
  split at found
  · rename_i quote later after
    simp only [Option.some.injEq] at found
    subst found
    have isQuote := List.head?_dropWhile_not (fun char => decide (char ≠ '"')) afterQuote
    simp only [run] at after
    rw [after] at isQuote
    simp only [List.head?_cons, decide_eq_false_iff_not, not_not] at isQuote
    subst isQuote
    apply Matches.string
    intro inBody
    simpa using mem_run _ inBody
  · simp at found

theorem punctuation?_matches {char : Char} {kind : TokenKind}
    (found : punctuation? char = some kind) : Matches kind [char] := by
  unfold punctuation? at found
  split at found <;> simp only [Option.some.injEq, reduceCtorEq] at found <;> subst found <;>
    constructor

theorem punctuation?_of_isBlank {char : Char} (blank : isBlank char = true) :
    punctuation? char = none := by
  unfold punctuation?
  split <;> first | rfl | exact absurd blank (by decide)

/-- The leading lexeme of a text matches the pattern of its kind. -/
theorem first?_matches {chars : List Char} {lexeme : Lexeme} (found : first? chars = some lexeme) :
    Matches lexeme.kind lexeme.chars := by
  unfold first? at found
  split at found
  · simp at found
  · rename_i char rest
    split at found
    · rename_i digit
      simp only [Option.some.injEq] at found
      subst found
      rw [(numeral_matches digit).1]
      exact .number (numeral_matches digit).2
    · split at found
      · exact string?_matches found
      · split at found
        · rename_i letter
          simp only [Option.some.injEq] at found
          subst found
          have starts : continuesIdentifier char = true := by
            simp [continuesIdentifier, Char.isAlphanum, letter]
          simp only [run, List.takeWhile_cons_of_pos starts]
          apply Matches.identifier letter
          intro later inRun
          simpa [continuesIdentifier] using List.mem_takeWhile_imp inRun
        · split at found
          · rename_i known
            simp only [Option.some.injEq] at found
            subst found
            exact punctuation?_matches known
          · split at found
            · rename_i blank
              simp only [Option.some.injEq] at found
              subst found
              exact .whitespace (run_ne_nil _ _ _ _ blank) mem_run
            · split at found
              · simp only [Option.some.injEq] at found
                subst found
                simp only [run, ne_eq, Char.reduceEq, not_false_eq_true, decide_true,
                  List.takeWhile_cons_of_pos]
                apply Matches.comment
                intro inLine
                simpa using List.mem_takeWhile_imp inLine
              · simp only [Option.some.injEq] at found
                subst found
                exact .arrow
              · simp at found

/-- What may come after a lexeme of a kind without continuing it. -/
def Ends (kind : TokenKind) (rest : List Char) : Prop :=
  match kind with
  | .number => ∀ char ∈ rest.head?, char.isDigit = false ∧ char ≠ '.'
  | .identifier => ∀ char ∈ rest.head?, continuesIdentifier char = false
  | .whitespace => ∀ char ∈ rest.head?, isBlank char = false
  | .comment => ∀ char ∈ rest.head?, char = '\n'
  | _ => True

/-- What may come after a numeral without continuing it: no digit, and after one without a fraction no
point with a digit behind it. -/
structure EndsNumeral (chars rest : List Char) : Prop where
  noDigit : ∀ char ∈ rest.head?, char.isDigit = false
  noFraction : '.' ∉ chars → ∀ digit later, rest = '.' :: digit :: later → digit.isDigit = false

theorem Ends.numeral {rest : List Char} (ends : Ends .number rest) (chars : List Char) :
    EndsNumeral chars rest where
  noDigit char isNext := (ends char isNext).1
  noFraction := by
    rintro - digit later rfl
    exact absurd rfl (ends '.' rfl).2

theorem numeral_append_eq {chars rest : List Char} (isNumeral : IsNumeral chars)
    (ends : EndsNumeral chars rest) : numeral (chars ++ rest) = ⟨.number, chars, rest⟩ := by
  have afterDigits : ∀ {digits : List Char}, IsDigits digits →
      run .number Char.isDigit (digits ++ rest) = ⟨.number, digits, rest⟩ := by
    intro digits isDigits
    exact run_append_eq isDigits.digits ends.noDigit
  cases isNumeral with
  | whole isWhole =>
      have noPoint : '.' ∉ chars := fun inside => absurd (isWhole.digits _ inside) (by decide)
      simp only [numeral, afterDigits isWhole]
      split
      · rename_i digit later
        rw [ends.noFraction noPoint digit later rfl, if_neg (by decide)]
      · rfl
  | @decimal whole fraction isWhole isFraction =>
      have wholePart : run .number Char.isDigit (whole ++ '.' :: (fraction ++ rest)) =
          ⟨.number, whole, '.' :: (fraction ++ rest)⟩ := by
        apply run_append_eq isWhole.digits
        intro char isPoint
        simp only [List.head?_cons, Option.mem_def, Option.some.injEq] at isPoint
        subst isPoint
        rfl
      have fractionPart := afterDigits isFraction
      rcases fraction with _ | ⟨digit, digits⟩
      · exact absurd rfl isFraction.nonempty
      · simp only [List.append_assoc, List.cons_append] at wholePart fractionPart ⊢
        simp only [numeral, wholePart, isFraction.digits digit (by simp), ↓reduceIte,
          fractionPart]

theorem numeral_ends (chars : List Char) :
    EndsNumeral (numeral chars).chars (numeral chars).rest := by
  generalize isNumeral : numeral chars = lexeme
  simp only [numeral] at isNumeral
  split at isNumeral
  · rename_i digit later found
    split at isNumeral
    · subst isNumeral
      exact ⟨run_stops .number _ _, fun noPoint => absurd (by simp) noPoint⟩
    · rename_i noDigit
      subst isNumeral
      refine ⟨run_stops _ _ _, fun _ digit' later' shape => ?_⟩
      rw [found, List.cons.injEq, List.cons.injEq] at shape
      rw [← shape.2.1]
      simpa using noDigit
  · rename_i noFraction
    subst isNumeral
    exact ⟨run_stops _ _ _, fun _ digit later shape => absurd shape (noFraction digit later)⟩

theorem string?_append_eq {body rest : List Char} (closed : '"' ∉ body) :
    string? (body ++ '"' :: rest) = some ⟨.string, '"' :: body ++ ['"'], rest⟩ := by
  have whole : run .string (fun char => decide (char ≠ '"')) (body ++ '"' :: rest) =
      ⟨.string, body, '"' :: rest⟩ := by
    apply run_append_eq
    · intro char inBody
      simp only [ne_eq, decide_not, Bool.not_eq_eq_eq_not, Bool.not_true, decide_eq_false_iff_not]
      rintro rfl
      exact closed inBody
    · simp
  simp only [string?, whole]

theorem first?_of_isBlank {char : Char} (blank : isBlank char = true) (rest : List Char) :
    first? (char :: rest) = some (run .whitespace isBlank (char :: rest)) := by
  have notQuote : char ≠ '"' := by
    rintro rfl
    exact absurd blank (by decide)
  simp [first?, isDigit_of_isBlank blank, notQuote, isAlpha_of_isBlank blank,
    punctuation?_of_isBlank blank, blank]

/-- A character that begins no lexeme is no blank. -/
theorem isBlank_of_first?_eq_none {char : Char} {rest : List Char}
    (nothing : first? (char :: rest) = none) : isBlank char = false := by
  by_contra blank
  rw [first?_of_isBlank (by simpa using blank)] at nothing
  simp at nothing

theorem first?_append_numeral {chars rest : List Char} (isNumeral : IsNumeral chars)
    (ends : EndsNumeral chars rest) : first? (chars ++ rest) = some ⟨.number, chars, rest⟩ := by
  have asNumeral := numeral_append_eq isNumeral ends
  rcases isNumeral.first_isDigit with ⟨digit, later, rfl, isDigit⟩
  simp only [List.cons_append] at asNumeral ⊢
  simp only [first?, isDigit, ↓reduceIte, asNumeral]

/-- A text that matches a pattern is the leading lexeme of every text that begins with it and does not
continue it. -/
theorem first?_append_eq {kind : TokenKind} {chars rest : List Char} (full : Matches kind chars)
    (ends : Ends kind rest) : first? (chars ++ rest) = some ⟨kind, chars, rest⟩ := by
  cases full with
  | number isNumeral => exact first?_append_numeral isNumeral (ends.numeral chars)
  | string closed =>
      simp only [List.cons_append, List.append_assoc, List.nil_append, first?]
      simpa using string?_append_eq closed
  | @identifier letter later starts continues =>
      have notDigit := isDigit_of_isAlpha starts
      have notQuote : letter ≠ '"' := by
        rintro rfl
        exact absurd starts (by decide)
      have whole : run .identifier continuesIdentifier ((letter :: later) ++ rest) =
          ⟨.identifier, letter :: later, rest⟩ := by
        apply run_append_eq _ ends
        intro char inside
        rcases List.mem_cons.mp inside with rfl | inLater
        · simp [continuesIdentifier, Char.isAlphanum, starts]
        · simpa [continuesIdentifier] using continues char inLater
      simp only [List.cons_append] at whole ⊢
      simp [first?, notDigit, notQuote, starts, whole]
  | @whitespace chars nonempty isBlanks =>
      rcases chars with _ | ⟨blank, later⟩
      · exact absurd rfl nonempty
      · have whole : run .whitespace TermScene.isBlank ((blank :: later) ++ rest) =
            ⟨.whitespace, blank :: later, rest⟩ := run_append_eq isBlanks ends
        rw [List.cons_append, first?_of_isBlank (isBlanks blank (by simp)), ← List.cons_append, whole]
  | @comment body line =>
      have whole : run .comment (fun char => decide (char ≠ '\n')) (('/' :: '/' :: body) ++ rest) =
          ⟨.comment, '/' :: '/' :: body, rest⟩ := by
        apply run_append_eq
        · intro char inside
          simp only [List.mem_cons] at inside
          rcases inside with rfl | rfl | inBody
          · decide
          · decide
          · simp only [ne_eq, decide_not, Bool.not_eq_eq_eq_not, Bool.not_true,
              decide_eq_false_iff_not]
            rintro rfl
            exact line inBody
        · intro char isNext
          simpa using ends char isNext
      simp only [List.cons_append] at whole ⊢
      simp only [first?, whole]
      rfl
  | _ => rfl

theorem ends_punctuation? {char : Char} {kind : TokenKind} (found : punctuation? char = some kind)
    (rest : List Char) : Ends kind rest := by
  unfold punctuation? at found
  split at found <;> simp only [Option.some.injEq, reduceCtorEq] at found <;> subst found <;>
    trivial

theorem first?_endsNumeral {chars : List Char} {lexeme : Lexeme} (found : first? chars = some lexeme)
    (isNumber : lexeme.kind = .number) : EndsNumeral lexeme.chars lexeme.rest := by
  have full := first?_matches found
  rw [isNumber] at full
  cases full with
  | number isNumeral =>
      rcases isNumeral.first_isDigit with ⟨digit, later, isChars, isDigit⟩
      have split := (first?_split found).1
      rw [isChars, List.cons_append] at split
      simp only [← split, first?, isDigit, ↓reduceIte, Option.some.injEq] at found
      rw [← found]
      exact numeral_ends _

/-- What follows the leading lexeme of a text does not continue it. -/
theorem first?_ends {chars : List Char} {lexeme : Lexeme} (found : first? chars = some lexeme)
    (other : lexeme.kind ≠ .number) : Ends lexeme.kind lexeme.rest := by
  unfold first? at found
  split at found
  · simp at found
  · rename_i char rest
    split at found
    · rename_i digit
      simp only [Option.some.injEq] at found
      subst found
      exact absurd (numeral_matches digit).1 other
    · split at found
      · simp only [string?] at found
        split at found
        · simp only [Option.some.injEq] at found
          subst found
          trivial
        · simp at found
      · split at found
        · simp only [Option.some.injEq] at found
          subst found
          exact run_stops _ _ _
        · split at found
          · rename_i known
            simp only [Option.some.injEq] at found
            subst found
            exact ends_punctuation? known _
          · split at found
            · simp only [Option.some.injEq] at found
              subst found
              exact run_stops _ _ _
            · split at found
              · simp only [Option.some.injEq] at found
                subst found
                intro char isNext
                simpa using run_stops _ _ _ char isNext
              · simp only [Option.some.injEq] at found
                subst found
                trivial
              · simp at found

end Lexeme

end TermScene
