import TermScene.Proofs.Program.Numbers
import TermScene.Proofs.Token.Layout

/-!
# Layout does not matter

Two layouts of the same pieces give tokens that differ only in their places. Reading is blind to places,
so the outcomes differ only in places as well: both are programs, and these are alike; or both are the
same error, found at tokens that agree; or both are the same failure of a numeral.
-/

namespace TermScene

open Recast

theorem LaidOut.lexemes {atStart : Bool} {pieces : List (TokenKind × String)} {chars : List Char}
    (laid : LaidOut atStart pieces chars) {tokens : List Token}
    (isPieces : tokens.map Token.piece = pieces) : Lexemes tokens := by
  induction laid generalizing tokens with
  | spacing isSpacing =>
      rw [List.map_eq_nil_iff.mp isPieces]
      simp [Lexemes]
  | piece isSpacing apart kept full more ih =>
      rcases List.map_eq_cons_iff.mp isPieces with ⟨token, later, rfl, isPiece, isLater⟩
      simp only [Token.piece, Prod.mk.injEq] at isPiece
      rcases isPiece with ⟨rfl, rfl⟩
      exact (ih isLater).cons ⟨kept, full⟩

section Pieces

variable {tokens tokens' : List Token}

theorem unplacing_token (token : Token) :
    unplacing.token token = ⟨token.piece.1, token.piece.2, none⟩ := by
  simp [Recast.token, unplacing, Token.piece]

theorem map_unplacing_iff : tokens.map unplacing.token = tokens'.map unplacing.token ↔
    tokens.map Token.piece = tokens'.map Token.piece := by
  have bare : ∀ others : List Token, others.map unplacing.token =
      (others.map Token.piece).map fun piece => ⟨piece.1, piece.2, none⟩ := by
    intro others
    rw [List.map_map]
    exact List.map_congr_left fun token _ => unplacing_token token
  rw [bare, bare]
  apply Function.Injective.eq_iff
  apply List.map_injective_iff.mpr
  intro piece piece' same
  simp only [Token.mk.injEq, and_true] at same
  exact Prod.ext same.1 same.2

theorem Wanted.message_of_piece (wanted : Wanted) {found found' : Token}
    (same : found.piece = found'.piece) : wanted.message found = wanted.message found' := by
  simp only [Token.piece, Prod.mk.injEq] at same
  cases wanted <;> simp [message, same.1, same.2]

theorem Parser.current_piece {rest rest' : List Token} {parser parser' : Parser}
    (finish : parser.finish.piece = parser'.finish.piece)
    (same : rest.map Token.piece = rest'.map Token.piece) :
    (parser.current rest).piece = (parser'.current rest').piece := by
  rcases rest with _ | ⟨token, later⟩ <;> rcases rest' with _ | ⟨token', later'⟩
  · exact finish
  · simp at same
  · simp at same
  · simp only [List.map_cons, List.cons.injEq] at same
    exact same.1

end Pieces

/-- Outcomes of reading a program that differ only in places. -/
inductive SameOutcome : Except ReadFailure ReadProgram → Except ReadFailure ReadProgram → Prop where
  | program {program program' : Program} {ignored : ℕ}
      (same : unplacing.program program = unplacing.program program')
      (alike : program.alike program' = true) :
      SameOutcome (.ok ⟨program, ignored⟩) (.ok ⟨program', ignored⟩)
  | strayToken {message : String} {location location' : Option Location} {expected : Option String}
      {found found' : Token} (agree : found.piece = found'.piece) :
      SameOutcome (.error (.source (.strayToken message location expected (.token found))))
        (.error (.source (.strayToken message location' expected (.token found'))))
  | notANumeral {text : String} : SameOutcome (.error (.notANumeral text)) (.error (.notANumeral text))
  | unbounded {cause : Binary64.Unbounded} :
      SameOutcome (.error (.unbounded cause)) (.error (.unbounded cause))

theorem programOfTokens_of_pieces {tokens tokens' : List Token}
    (same : tokens.map Token.piece = tokens'.map Token.piece) (lexemes : Lexemes tokens)
    (source source' filename filename' : String) :
    SameOutcome (programOfTokens tokens source filename)
      (programOfTokens tokens' source' filename') := by
  have agree : unplacing.reading unplacing.program (readProgram tokens) =
      unplacing.reading unplacing.program (readProgram tokens') := by
    rw [← readProgram_map, ← readProgram_map, map_unplacing_iff.mpr same]
  have finish : (Parser.ofTokens tokens source filename).finish.piece =
      (Parser.ofTokens tokens' source' filename').finish.piece := rfl
  unfold programOfTokens
  cases read : readProgram tokens with
  | done program rest =>
      cases read' : readProgram tokens' with
      | stuck fault rest' => simp [read, read', Recast.reading] at agree
      | done program' rest' =>
          simp only [read, read', Recast.reading, Reading.done.injEq, map_unplacing_iff] at agree
          rcases agree with ⟨sameProgram, sameRest⟩
          have sameKind := congrArg Prod.fst (Parser.current_piece finish sameRest)
          have sameLength : rest.length = rest'.length := by
            simpa using congrArg List.length sameRest
          have alike : program.alike program' = true := by
            rcases readProgram_eq_done_iff.mp read with ⟨front, rfl, derives⟩
            have proper := derives.number_ne_nan (List.forall_mem_append.mp lexemes).1
            have sameCommands := congrArg Program.commands sameProgram
            exact Command.allAlike_of_unplacing_eq _ _ sameCommands proper
          rw [Parser.parse_of_done source filename read, Parser.parse_of_done source' filename' read']
          simp only [Token.piece] at sameKind
          rw [sameKind, sameLength]
          exact .program sameProgram alike
  | stuck fault rest =>
      cases read' : readProgram tokens' with
      | done program rest' => simp [read, read', Recast.reading] at agree
      | stuck fault' rest' =>
          simp only [read, read', Recast.reading, Reading.stuck.injEq, map_unplacing_iff] at agree
          rcases agree with ⟨rfl, sameRest⟩
          rw [Parser.parse_of_stuck source filename read, Parser.parse_of_stuck source' filename' read']
          cases fault with
          | wanted wanted =>
              have found := Parser.current_piece finish sameRest
              simp only [Parser.failure, Wanted.error, wanted.message_of_piece found]
              exact .strayToken found
          | notANumeral text => exact .notANumeral
          | unbounded cause => exact .unbounded

/-- A layout is read as its pieces, and two layouts of the same pieces have the same outcome. -/
theorem programOfSource_of_layouts {pieces : List (TokenKind × String)} {source source' : String}
    (laid : LaidOut true pieces source.toList) (laid' : LaidOut true pieces source'.toList)
    (filename filename' : Option String) :
    (∃ tokens, tokensOf source filename = .ok tokens ∧ tokens.map Token.piece = pieces) ∧
      SameOutcome (programOfSource source filename) (programOfSource source' filename') := by
  rcases laid.tokensOf_pieces filename with ⟨tokens, read, isPieces⟩
  rcases laid'.tokensOf_pieces filename' with ⟨tokens', read', isPieces'⟩
  refine ⟨⟨tokens, read, isPieces⟩, ?_⟩
  simp only [programOfSource, read, read']
  exact programOfTokens_of_pieces (isPieces.trans isPieces'.symm) (laid.lexemes isPieces) ..

/-- A word and a string that looks like a comment, on one line and between comments that look like
strings. -/
theorem programOfSource_of_layouts_comments :
    ∃ pieces, LaidOut true pieces "a \"//\"".toList ∧
      LaidOut true pieces "//\"\na//\"\n\"//\"//".toList ∧
        SameOutcome (programOfSource "a \"//\"" none)
          (programOfSource "//\"\na//\"\n\"//\"//" (some "scene")) := by
  have word : Matches .identifier "a".toList := .identifier (by decide) (by simp)
  have closed : '"' ∉ ['/', '/'] := by decide
  have string : Matches .string "\"//\"".toList := .string closed
  have blank : Spacing false [' '] := .blank (by decide) .nil
  have comment : Spacing false ('/' :: '/' :: ['"'] ++ '\n' :: []) := .comment (by decide) .nil
  have lastComment : Spacing true ('/' :: '/' :: []) := .lastComment rfl (by decide)
  have isWord : TokenKind.identifier.IsEmitted := ⟨rfl, by decide⟩
  have isString : TokenKind.string.IsEmitted := ⟨rfl, by decide⟩
  have laid : LaidOut true [(.identifier, "a"), (.string, "\"//\"")] "a \"//\"".toList :=
    .piece .nil (by simp) isWord word (.piece blank (by simp) isString string (.spacing .nil))
  have laid' : LaidOut true [(.identifier, "a"), (.string, "\"//\"")]
      "//\"\na//\"\n\"//\"//".toList :=
    .piece comment (by simp) isWord word
      (.piece comment (by simp) isString string (.spacing lastComment))
  exact ⟨_, laid, laid', (programOfSource_of_layouts laid laid' none (some "scene")).2⟩

end TermScene
