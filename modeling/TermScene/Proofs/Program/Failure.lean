import TermScene.Editor.Outline
import TermScene.Proofs.Program.Numbers
import TermScene.Proofs.Token.Layout

/-!
# Failures to read

A program fails to be read for an error in it, a character that begins no lexeme or a token where another
is wanted, and for one other reason: a count whose numeral is beyond the greatest double, which has no
integer part. It fails for that reason exactly when such a count is come to before any error, and then
the services of an editor fail with it. In every other case they give a list.
-/

namespace TermScene

def ReadFailure.IsSourceError : ReadFailure → Prop
  | .source (.strayCharacter ..) => True
  | .source (.strayToken ..) => True
  | _ => False

/-- Reading a source comes to a count whose numeral is beyond the greatest double, and no further. -/
def EndlessCount (source : String) (filename : Option String) : Prop :=
  ∃ tokens front numeral rest, tokensOf source filename = .ok tokens ∧
    tokens = front ++ numeral :: rest ∧ numeral.HasNumber (.infinity false) ∧
      ProgramHalts (front ++ [numeral]) (.unbounded .infinite) rest

theorem decimalValue_nonneg (numeral : List Char) : 0 ≤ decimalValue numeral := by
  simp only [decimalValue]
  positivity

namespace Binary64

/-- Rounding a number that is not negative gives something with an integer part, or the infinity of the
positive sign. -/
theorem truncate_round {value : ℚ} (nonneg : 0 ≤ value) :
    (∃ whole, (round value).truncate = .ok whole) ∨
      round value = .infinity false ∧ (round value).truncate = .error .infinite := by
  have sign : decide (value < 0) = false := by simpa using nonneg
  simp only [round, sign]
  split
  · exact .inr ⟨rfl, rfl⟩
  · split
    · exact .inl ⟨_, rfl⟩
    · exact .inl ⟨_, truncate_finite _⟩

end Binary64

section Slots

variable {token : Token} {slot : Slot} {fault : Fault}

/-- A lexeme that is of no use to a slot is the numeral of a count, and its number is infinite. -/
theorem Token.IsLexeme.useless (lexeme : token.IsLexeme) (fits : token.kind = slot.kind)
    (useless : slot.check token.text = .error fault) :
    fault = .unbounded .infinite ∧ token.HasNumber (.infinity false) := by
  have numeral : token.kind = .number → numberOf token.text =
      .ok (.round (decimalValue token.text.toList)) :=
    fun isNumber => numberOf_eq_ok_iff.mpr (lexeme.hasNumber isNumber).2
  cases slot with
  | number =>
      simp [Slot.check, numeral fits, Except.map] at useless
  | count =>
      rw [Slot.check] at useless
      rcases Binary64.truncate_round (decimalValue_nonneg token.text.toList) with
        ⟨whole, isWhole⟩ | ⟨isInfinite, isEndless⟩
      · simp [countOf_of_ok (numeral fits) isWhole, Except.map] at useless
      · rw [countOf_of_unbounded (numeral fits) isEndless] at useless
        simp only [Except.map, Except.error.injEq] at useless
        refine ⟨useless.symm, Token.hasNumber_iff.mpr ⟨fits, ?_⟩⟩
        rw [numeral fits, isInfinite]
  | mark kind => simp [Slot.check] at useless
  | string => simp [Slot.check] at useless
  | name => simp [Slot.check] at useless

/-- Where lexemes are read, a fault is that another token is wanted or that a count is endless. -/
theorem ProgramHalts.fault_of_lexemes {front rest : List Token}
    (halts : ProgramHalts front fault rest) (lexemes : Lexemes front) :
    (∃ wanted, fault = .wanted wanted) ∨
      ∃ before numeral, fault = .unbounded .infinite ∧ front = before ++ [numeral] ∧
        numeral.HasNumber (.infinity false) := by
  rcases halts.isFaultOf with isWanted | ⟨before, numeral, slot, rfl, fits, useless⟩
  · exact .inl isWanted
  · rcases (lexemes numeral (by simp)).useless fits useless with ⟨rfl, infinite⟩
    exact .inr ⟨before, numeral, rfl, rfl, infinite⟩

end Slots

theorem tokensOf_error {source : String} {filename : Option String} {error : SourceError}
    (fails : tokensOf source filename = .error error) :
    ∃ character location line, error = .strayCharacter character location line := by
  simp only [tokensOf, Lexer.tokenize] at fails
  split at fails
  · simp at fails
  · simp only [Except.error.injEq] at fails
    exact ⟨_, _, _, fails.symm⟩

section Tokens

variable {tokens : List Token} (source name : String)

theorem programOfTokens_of_endless {front rest : List Token} {numeral : Token}
    (halts : ProgramHalts (front ++ [numeral]) (.unbounded .infinite) rest) :
    programOfTokens (front ++ numeral :: rest) source name = .error (.unbounded .infinite) := by
  have read := readProgram_of_halts halts
  rw [List.append_assoc, List.singleton_append] at read
  rw [programOfTokens, Parser.parse_of_stuck source name read]
  rfl

/-- Reading lexemes succeeds, fails for an error or comes to an endless count. -/
theorem programOfTokens_outcome (lexemes : Lexemes tokens) :
    (∃ read, programOfTokens tokens source name = .ok read) ∨
      (∃ error, programOfTokens tokens source name = .error (.source error) ∧
        (ReadFailure.source error).IsSourceError) ∨
      ∃ front numeral rest, tokens = front ++ numeral :: rest ∧ numeral.HasNumber (.infinity false) ∧
        ProgramHalts (front ++ [numeral]) (.unbounded .infinite) rest := by
  unfold programOfTokens
  cases read : readProgram tokens with
  | done program rest =>
      rw [Parser.parse_of_done source name read]
      exact .inl ⟨_, rfl⟩
  | stuck fault rest =>
      rcases readProgram_eq_stuck_iff.mp read with ⟨front, rfl, halts⟩
      rw [Parser.parse_of_stuck source name read]
      rcases halts.fault_of_lexemes (List.forall_mem_append.mp lexemes).1 with
        ⟨wanted, rfl⟩ | ⟨before, numeral, rfl, rfl, infinite⟩
      · exact .inr (.inl ⟨_, rfl, trivial⟩)
      · exact .inr (.inr ⟨before, numeral, rest, by simp, infinite, halts⟩)

end Tokens

theorem programOfSource_of_endless {source : String} {filename : Option String}
    (endless : EndlessCount source filename) :
    programOfSource source filename = .error (.unbounded .infinite) := by
  rcases endless with ⟨tokens, front, numeral, rest, read, rfl, infinite, halts⟩
  simp only [programOfSource, read, programOfTokens_of_endless _ _ halts]

/-- How reading a source ends, for a program and for an editor: without an endless count there is a
program or an error, and an editor gets lists; with one all fail alike. -/
structure FailsOnlyEndless (source : String) (filename : Option String) (uri : String) : Prop where
  program : ¬EndlessCount source filename →
    (∃ read, programOfSource source filename = .ok read) ∨
      ∃ failure, programOfSource source filename = .error failure ∧ failure.IsSourceError
  problems : ¬EndlessCount source (some uri) →
    ∃ listed notices, Editor.problems source uri = .ok (listed, notices)
  outline : ¬EndlessCount source (some uri) →
    ∃ entries notices, Editor.outline source uri = .ok (entries, notices)
  programFails : EndlessCount source filename →
    programOfSource source filename = .error (.unbounded .infinite)
  problemsFail : EndlessCount source (some uri) →
    Editor.problems source uri = .error (.unbounded .infinite)
  outlineFails : EndlessCount source (some uri) →
    Editor.outline source uri = .error (.unbounded .infinite)

namespace Editor

theorem readDocument_of_endless {source uri : String} (endless : EndlessCount source (some uri)) :
    readDocument source uri = .error (.unbounded .infinite) := by
  rcases endless with ⟨tokens, front, numeral, rest, read, rfl, infinite, halts⟩
  simp only [readDocument, read, programOfTokens_of_endless source uri halts]

theorem problems_of_endless {source uri : String} (endless : EndlessCount source (some uri)) :
    problems source uri = .error (.unbounded .infinite) := by
  simp only [problems, readDocument_of_endless endless]

theorem outline_of_endless {source uri : String} (endless : EndlessCount source (some uri)) :
    outline source uri = .error (.unbounded .infinite) := by
  simp only [outline, readDocument_of_endless endless]

theorem readDocument_outcome {source uri : String} (bounded : ¬EndlessCount source (some uri)) :
    (∃ document, readDocument source uri = .ok document) ∨
      ∃ error, readDocument source uri = .error (.source error) := by
  unfold readDocument
  cases read : tokensOf source (some uri) with
  | error error => exact .inr ⟨error, rfl⟩
  | ok tokens =>
      rcases programOfTokens_outcome source uri (tiled_of_tokensOf read).lexemes with
        ⟨program, done⟩ | ⟨error, fails, _⟩ | ⟨front, numeral, rest, split, infinite, halts⟩
      · simp only [done]
        exact .inl ⟨_, rfl⟩
      · simp only [fails]
        exact .inr ⟨error, rfl⟩
      · exact absurd ⟨tokens, front, numeral, rest, read, split, infinite, halts⟩ bounded

end Editor

theorem programOfSource_failsOnlyEndless (source : String) (filename : Option String) (uri : String) :
    FailsOnlyEndless source filename uri := by
  constructor
  case program =>
    intro bounded
    unfold programOfSource
    cases read : tokensOf source filename with
    | error error =>
        rcases tokensOf_error read with ⟨character, location, line, rfl⟩
        exact .inr ⟨_, rfl, trivial⟩
    | ok tokens =>
        rcases programOfTokens_outcome source _ (tiled_of_tokensOf read).lexemes with
          ⟨program, done⟩ | ⟨error, fails, isError⟩ | ⟨front, numeral, rest, split, infinite, halts⟩
        · exact .inl ⟨program, done⟩
        · exact .inr ⟨_, fails, isError⟩
        · exact absurd ⟨tokens, front, numeral, rest, read, split, infinite, halts⟩ bounded
  case problems =>
    intro bounded
    rcases Editor.readDocument_outcome bounded with ⟨document, read⟩ | ⟨error, read⟩
    · simp only [Editor.problems, read]
      exact ⟨_, _, rfl⟩
    · simp only [Editor.problems, read]
      exact ⟨_, _, rfl⟩
  case outline =>
    intro bounded
    rcases Editor.readDocument_outcome bounded with ⟨document, read⟩ | ⟨error, read⟩
    · simp only [Editor.outline, read]
      exact ⟨_, _, rfl⟩
    · simp only [Editor.outline, read]
      exact ⟨_, _, rfl⟩
  case programFails => exact programOfSource_of_endless
  case problemsFail => exact Editor.problems_of_endless
  case outlineFails => exact Editor.outline_of_endless

section Wait

variable {numeral : String}

theorem laidOut_wait (isNumeral : IsNumeral numeral.toList) :
    LaidOut true
      [(.identifier, "canvas"), (.leftBrace, "\x7b"), (.identifier, "wait"), (.number, numeral),
        (.semicolon, ";"), (.rightBrace, "\x7d")]
      ("canvas \x7b wait " ++ numeral ++ " ; \x7d").toList := by
  have blank : Spacing false [' '] := .blank (by decide) .nil
  have isWord : TokenKind.identifier.IsEmitted := ⟨rfl, by decide⟩
  have isLeft : TokenKind.leftBrace.IsEmitted := ⟨rfl, by decide⟩
  have isNumber : TokenKind.number.IsEmitted := ⟨rfl, by decide⟩
  have isEnd : TokenKind.semicolon.IsEmitted := ⟨rfl, by decide⟩
  have isRight : TokenKind.rightBrace.IsEmitted := ⟨rfl, by decide⟩
  have canvas : Matches .identifier "canvas".toList := .identifier (by decide) (by simp; decide)
  have wait : Matches .identifier "wait".toList := .identifier (by decide) (by simp; decide)
  have left : Matches .leftBrace "\x7b".toList := .leftBrace
  have right : Matches .rightBrace "\x7d".toList := .rightBrace
  have finish : Matches .semicolon ";".toList := .semicolon
  have pieces : LaidOut true _ _ := .piece .nil (by simp) isWord canvas
    (.piece blank (by simp) isLeft left
      (.piece blank (by simp) isWord wait
        (.piece blank (by simp) isNumber (.number isNumeral)
          (.piece blank (by simp) isEnd finish
            (.piece blank (by simp) isRight right (.spacing .nil))))))
  simpa using pieces

theorem endlessCount_wait (isNumeral : IsNumeral numeral.toList)
    (isFar : Binary64.ofText? numeral = some (.infinity false)) (filename : Option String) :
    EndlessCount ("canvas \x7b wait " ++ numeral ++ " ; \x7d") filename := by
  rcases (laidOut_wait isNumeral).tokensOf_pieces filename with ⟨tokens, read, isPieces⟩
  rcases tokens with _ | ⟨word, _ | ⟨left, _ | ⟨wait, _ | ⟨time, rest⟩⟩⟩⟩ <;>
    simp only [List.map_cons, List.map_nil, List.cons.injEq, reduceCtorEq, and_false, Token.piece,
      Prod.mk.injEq] at isPieces
  rcases isPieces with ⟨⟨isWord, -⟩, ⟨isLeft, -⟩, isWait, ⟨isNumber, isText⟩, -⟩
  have infinite : time.HasNumber (.infinity false) := ⟨isNumber, by rw [isText, isFar]⟩
  have useless : Slot.count.check time.text = .error (.unbounded .infinite) := by
    have found := numberOf_eq_ok_iff.mpr infinite.2
    simp [Slot.check, countOf_of_unbounded found rfl, Except.map]
  have known : wait.keyword? = some .wait := Token.keyword?_eq_some_iff.mpr isWait
  have fits : time.kind = Slot.count.kind := isNumber
  have halts : Halts [wait, time] (.unbounded .infinite) rest :=
    .simple known rfl (.value fits useless)
  exact ⟨_, [word, left, wait], time, rest, read, rfl, infinite, .inside isWord isLeft halts⟩

end Wait

/-- A pause of three hundred and ten digits: neither a program nor an error, and nothing for an
editor. -/
theorem programOfSource_endless_wait :
    ∃ source : String,
      source = "canvas \x7b wait " ++ String.ofList ('1' :: List.replicate 309 '0') ++ " ; \x7d" ∧
        programOfSource source none = .error (.unbounded .infinite) ∧
        ¬(ReadFailure.unbounded .infinite).IsSourceError ∧
        Editor.problems source "uri" = .error (.unbounded .infinite) ∧
        Editor.outline source "uri" = .error (.unbounded .infinite) := by
  have isNumeral : IsNumeral (String.ofList ('1' :: List.replicate 309 '0')).toList := by
    rw [String.toList_ofList]
    refine .whole ⟨List.cons_ne_nil _ _, ?_⟩
    intro digit inside
    rcases List.mem_cons.mp inside with rfl | inside
    · decide
    · rw [List.eq_of_mem_replicate inside]
      decide
  have isFar : Binary64.ofText? (String.ofList ('1' :: List.replicate 309 '0')) =
      some (.infinity false) := by
    rw [Binary64.ofText?_numeral isNumeral, String.toList_ofList]
    decide +kernel
  have endless := endlessCount_wait isNumeral isFar
  exact ⟨_, rfl, programOfSource_of_endless (endless none), id,
    Editor.problems_of_endless (endless (some "uri")), Editor.outline_of_endless (endless (some "uri"))⟩

end TermScene
