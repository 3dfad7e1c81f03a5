import TermScene.Proofs.Program.Inside
import TermScene.Proofs.Program.Recast
import TermScene.Proofs.Token.Returns

/-!
# Programs with carriage returns

A text in which every carriage return stands before a newline, and the text without them, are read alike:
the tokens and the trees differ only in the returns that strings keep, and errors are the same ones on the
same lines and in the same columns. The end of the program, which is found by cutting the text into lines,
is no exception.
-/

namespace TermScene

section Strings

def Drawing.strings : Drawing → List String
  | .circle _ _ _ fill => [fill]
  | .rect _ _ _ _ fill => [fill]
  | .text content _ _ _ color => [content, color]
  | .line _ _ _ _ color => [color]

namespace Command

mutual

/-- The strings in a command, of those inside it as well. -/
def strings : Command → List String
  | .background color _ => [color]
  | .draw drawing _ => drawing.strings
  | .define _ _ _ => []
  | .rainbow text _ _ _ _ => [text]
  | .wait _ _ => []
  | .frame body _ => allStrings body
  | .animate children _ _ => allStrings children

def allStrings : List Command → List String
  | [] => []
  | first :: later => strings first ++ allStrings later

end

end Command

def Program.strings (program : Program) : List String := Command.allStrings program.commands

/-- Whether a text is that of a string token, with its quotes or without. -/
def Token.Carries (token : Token) (text : String) : Prop :=
  token.kind = .string ∧ (text = token.text ∨ text = withoutQuotes token.text)

theorem DerivesPlain.strings_carried {tokens : List Token} {command : Command}
    (derives : DerivesPlain tokens command) :
    StandsIn Token.Carries tokens command.strings := by
  intro text isText
  cases derives with
  | background starts isColor =>
      simp only [Command.strings, List.mem_singleton] at isText
      exact ⟨_, by simp, isColor, .inl isText⟩
  | circle starts isAt isPoint marksSize isSize marksFill isFill =>
      simp only [Command.strings, Drawing.strings, List.mem_singleton] at isText
      exact ⟨_, by simp, isFill, .inl isText⟩
  | rect starts isAt isPoint marksWide isWide marksHigh isHigh marksFill isFill =>
      simp only [Command.strings, Drawing.strings, List.mem_singleton] at isText
      exact ⟨_, by simp, isFill, .inl isText⟩
  | text starts isContent isAt isPoint marksSize isSize marksColor isColor =>
      simp only [Command.strings, Drawing.strings, List.mem_cons, List.not_mem_nil,
        or_false] at isText
      rcases Token.hasContent_iff.mp isContent with ⟨isString, rfl⟩
      rcases isText with isContentText | isColorText
      · exact ⟨_, by simp, isString, .inr isContentText⟩
      · exact ⟨_, by simp, isColor, .inl isColorText⟩
  | line starts isFrom isStart isTo isFinish marksColor isColor =>
      simp only [Command.strings, Drawing.strings, List.mem_singleton] at isText
      exact ⟨_, by simp, isColor, .inl isText⟩
  | var => simp [Command.strings] at isText
  | rainbow starts isContent =>
      simp only [Command.strings, List.mem_singleton] at isText
      rcases Token.hasContent_iff.mp isContent with ⟨isString, rfl⟩
      exact ⟨_, by simp, isString, .inr isText⟩
  | wait => simp [Command.strings] at isText

theorem Command.isGathered_strings : IsGathered Token.Carries Command.strings Command.allStrings :=
  ⟨DerivesPlain.strings_carried, fun _ _ => rfl, fun _ _ _ => rfl, rfl, fun _ _ => rfl⟩

/-- Every string of a program is carried by one of its tokens. -/
theorem DerivesProgram.strings_carried {tokens : List Token} {program : Program}
    (derives : DerivesProgram tokens program) : StandsIn Token.Carries tokens program.strings :=
  derives.standsIn Command.isGathered_strings

end Strings

/-- Carriage returns in strings are left out, and of places the line and the column are kept. -/
def leveling : Recast where
  string text := String.ofList (withoutReturns text.toList)
  place := Option.map fun location => { location with offset := 0, filename := none }
  quotes := by
    intro text
    simp only [withoutQuotes, withoutReturns, String.toList_ofList, List.filter_filter, Bool.and_comm]

/-- A program of a text and one of the text without its returns. Leaving out returns in strings makes
them equal, with the same lines and columns; those left out are the ones before newlines, and the latter
program has none. -/
structure Program.Joined (program program' : Program) : Prop where
  leveled : leveling.program program = leveling.program program'
  joins : ∀ text ∈ program.strings, withoutReturns text.toList = joinReturns text.toList
  keeps : ∀ text ∈ program'.strings, withoutReturns text.toList = text.toList

/-- Outcomes of reading the tokens of a text and of the text without its returns. -/
inductive JoinedTokens : Except SourceError (List Token) → Except SourceError (List Token) → Prop where
  | tokens {tokens tokens' : List Token} (joined : List.Forall₂ Token.Joined tokens tokens') :
      JoinedTokens (.ok tokens) (.ok tokens')
  | strayCharacter {character : String} {location location' : Location}
      {line line' : Option String} (spot : location'.spot = location.spot) :
      JoinedTokens (.error (.strayCharacter character (some location) line))
        (.error (.strayCharacter character (some location') line'))

/-- Outcomes of reading a text and the text without its returns. -/
inductive JoinedOutcome :
    Except ReadFailure ReadProgram → Except ReadFailure ReadProgram → Prop where
  | program {program program' : Program} {ignored : ℕ} (joined : program.Joined program') :
      JoinedOutcome (.ok ⟨program, ignored⟩) (.ok ⟨program', ignored⟩)
  | strayCharacter {character : String} {location location' : Location}
      {line line' : Option String} (spot : location'.spot = location.spot) :
      JoinedOutcome (.error (.source (.strayCharacter character (some location) line)))
        (.error (.source (.strayCharacter character (some location') line')))
  | strayToken {message : String} {expected : Option String} {found found' : Token}
      (kind : found'.kind = found.kind)
      (spot : found'.location.map Location.spot = found.location.map Location.spot) :
      JoinedOutcome (.error (.source (.strayToken message found.location expected (.token found))))
        (.error (.source (.strayToken message found'.location expected (.token found'))))
  | notANumeral {text : String} :
      JoinedOutcome (.error (.notANumeral text)) (.error (.notANumeral text))
  | unbounded {cause : Binary64.Unbounded} :
      JoinedOutcome (.error (.unbounded cause)) (.error (.unbounded cause))

theorem leveling_place_eq {place place' : Option Location} :
    leveling.place place = leveling.place place' ↔
      place.map Location.spot = place'.map Location.spot := by
  cases place <;> cases place' <;> simp [leveling, Location.spot]

theorem leveling_token_eq {token token' : Token}
    (same : leveling.token token = leveling.token token') :
    token.kind = token'.kind ∧
      token.location.map Location.spot = token'.location.map Location.spot := by
  simp only [Recast.token, Token.mk.injEq] at same
  exact ⟨same.1, leveling_place_eq.mp same.2.2⟩

namespace Token.Joined

variable {token token' : Token}

theorem text_eq (joined : token.Joined token') :
    token'.text = String.ofList (withoutReturns token.text.toList) := by
  rw [joined.text, joined.paired.joinReturns_eq]

theorem leveled (joined : token.Joined token') : leveling.token token = leveling.token token' := by
  have place := leveling_place_eq.mpr joined.spot.symm
  by_cases isString : token.kind = .string
  · simp only [Recast.token, joined.kind, isString, ↓reduceIte, place, joined.text_eq]
    simp [leveling, withoutReturns]
  · have noReturn := joined.lexeme.2.return_not_mem joined.lexeme.1.1 isString
    simp only [Recast.token, joined.kind, isString, ↓reduceIte, place, joined.text_eq,
      withoutReturns_eq_self noReturn, String.ofList_toList]

/-- What a string token of a text carries keeps each return with its newline. -/
theorem paired_of_carries (joined : token.Joined token') {text : String} (carries : token.Carries text) :
    PairedReturns text.toList := by
  rcases carries.2 with rfl | rfl
  · exact joined.paired
  · rw [withoutQuotes, String.toList_ofList]
    exact joined.paired.filter (by decide)

theorem return_not_mem_of_carries (joined : token.Joined token') {text : String}
    (carries : token'.Carries text) : '\r' ∉ text.toList := by
  have noReturn : '\r' ∉ token'.text.toList := by
    rw [joined.text_eq, String.toList_ofList]
    simp [withoutReturns]
  rcases carries.2 with rfl | rfl
  · exact noReturn
  · rw [withoutQuotes, String.toList_ofList]
    exact fun inside => noReturn (List.mem_of_mem_filter inside)

end Token.Joined

section Outcomes

variable {tokens tokens' : List Token}

theorem exists_joined (joined : List.Forall₂ Token.Joined tokens tokens') :
    (∀ token ∈ tokens, ∃ token', Token.Joined token token') ∧
      ∀ token' ∈ tokens', ∃ token, Token.Joined token token' := by
  induction joined with
  | nil => simp
  | cons first _ ih =>
      exact ⟨List.forall_mem_cons.mpr ⟨⟨_, first⟩, ih.1⟩, List.forall_mem_cons.mpr ⟨⟨_, first⟩, ih.2⟩⟩

theorem map_leveling_eq (joined : List.Forall₂ Token.Joined tokens tokens') :
    tokens.map leveling.token = tokens'.map leveling.token := by
  induction joined with
  | nil => rfl
  | cons first _ ih => rw [List.map_cons, List.map_cons, first.leveled, ih]

theorem Wanted.message_of_leveled (wanted : Wanted) {found found' : Token}
    (same : leveling.token found = leveling.token found') :
    wanted.message found = wanted.message found' := by
  have kind := (leveling_token_eq same).1
  cases wanted with
  | kind wantedKind => simp only [message, kind]
  | command =>
      by_cases isWord : found.kind = .identifier
      · have isWord' : found'.kind = .identifier := kind ▸ isWord
        have text := congrArg Token.text same
        rw [leveling.token_text_of_ne found (by simp [isWord]),
          leveling.token_text_of_ne found' (by simp [isWord'])] at text
        simp only [message, kind, text]
      · have isOther : found'.kind ≠ .identifier := kind ▸ isWord
        simp only [message, isOther, ↓reduceIte, kind]

theorem Parser.current_leveled {rest rest' : List Token} {parser parser' : Parser}
    (finish : leveling.token parser.finish = leveling.token parser'.finish)
    (same : rest.map leveling.token = rest'.map leveling.token) :
    leveling.token (parser.current rest) = leveling.token (parser'.current rest') := by
  rcases rest with _ | ⟨token, later⟩ <;> rcases rest' with _ | ⟨token', later'⟩
  · exact finish
  · simp at same
  · simp at same
  · simp only [List.map_cons, List.cons.injEq] at same
    exact same.1

/-- The trees that are read from the tokens of a text and of the text without its returns. -/
theorem Program.joined_of_derives {front front' rest rest' : List Token} {program program' : Program}
    (joined : List.Forall₂ Token.Joined (front ++ rest) (front' ++ rest'))
    (derives : DerivesProgram front program) (derives' : DerivesProgram front' program')
    (leveled : leveling.program program = leveling.program program') :
    program.Joined program' := by
  rcases exists_joined joined with ⟨joins, isJoined⟩
  refine ⟨leveled, ?_, ?_⟩
  · intro text isText
    rcases derives.strings_carried text isText with ⟨token, isToken, carries⟩
    rcases joins token (List.mem_append_left rest isToken) with ⟨token', both⟩
    exact (both.paired_of_carries carries).joinReturns_eq.symm
  · intro text isText
    rcases derives'.strings_carried text isText with ⟨token', isToken, carries⟩
    rcases isJoined token' (List.mem_append_left rest' isToken) with ⟨token, both⟩
    exact withoutReturns_eq_self (both.return_not_mem_of_carries carries)

theorem programOfTokens_joined {source source' filename filename' : String}
    (joined : List.Forall₂ Token.Joined tokens tokens')
    (finish : (Parser.finishLocation tokens source filename).map Location.spot =
      (Parser.finishLocation tokens' source' filename').map Location.spot) :
    JoinedOutcome (programOfTokens tokens source filename)
      (programOfTokens tokens' source' filename') := by
  have agree : leveling.reading leveling.program (readProgram tokens) =
      leveling.reading leveling.program (readProgram tokens') := by
    rw [← Recast.readProgram_map, ← Recast.readProgram_map, map_leveling_eq joined]
  have finishToken : leveling.token (Parser.ofTokens tokens source filename).finish =
      leveling.token (Parser.ofTokens tokens' source' filename').finish :=
    congrArg (Token.mk .endOfFile "EOF") (leveling_place_eq.mpr finish)
  unfold programOfTokens
  cases read : readProgram tokens with
  | done program rest =>
      cases read' : readProgram tokens' with
      | stuck fault rest' => simp [read, read', Recast.reading] at agree
      | done program' rest' =>
          simp only [read, read', Recast.reading, Reading.done.injEq] at agree
          rcases agree with ⟨sameProgram, sameRest⟩
          have sameKind := (leveling_token_eq (Parser.current_leveled finishToken sameRest)).1
          have sameLength : rest.length = rest'.length := by
            simpa using congrArg List.length sameRest
          rw [Parser.parse_of_done source filename read, Parser.parse_of_done source' filename' read']
          rcases readProgram_eq_done_iff.mp read with ⟨front, rfl, derives⟩
          rcases readProgram_eq_done_iff.mp read' with ⟨front', rfl, derives'⟩
          rw [sameKind, sameLength]
          exact .program (Program.joined_of_derives joined derives derives' sameProgram)
  | stuck fault rest =>
      cases read' : readProgram tokens' with
      | done program rest' => simp [read, read', Recast.reading] at agree
      | stuck fault' rest' =>
          simp only [read, read', Recast.reading, Reading.stuck.injEq] at agree
          rcases agree with ⟨rfl, sameRest⟩
          rw [Parser.parse_of_stuck source filename read, Parser.parse_of_stuck source' filename' read']
          cases fault with
          | wanted wanted =>
              have found := Parser.current_leveled finishToken sameRest
              rcases leveling_token_eq found with ⟨kind, spot⟩
              simp only [Parser.failure, Wanted.error, wanted.message_of_leveled found]
              exact .strayToken kind.symm spot.symm
          | notANumeral text => exact .notANumeral
          | unbounded cause => exact .unbounded

end Outcomes

/-- A text in lockstep with the text without its returns, at the ends of both. -/
theorem placeAfter_spot {chars : List Char} (paired : PairedReturns chars)
    (filename filename' : Option String) :
    (placeAfter (withoutReturns chars) filename').spot = (placeAfter chars filename).spot := by
  have start : Lockstep .start .start (chars ++ []) := ⟨rfl, .inr rfl⟩
  have ends := start.advance (by simpa using paired)
  rw [← Cursor.start_advance_location, ← Cursor.start_advance_location]
  have sameColumn := ends.column.resolve_left (by simp)
  simp [Cursor.location, Location.spot, ends.line, sameColumn]

theorem PairedReturns.withoutReturns_ne_nil {chars : List Char} (paired : PairedReturns chars)
    (nonempty : chars ≠ []) : withoutReturns chars ≠ [] := by
  rcases chars with _ | ⟨char, rest⟩
  · exact absurd rfl nonempty
  by_cases isReturn : char = '\r'
  · subst isReturn
    rcases paired.newline with ⟨later, rfl⟩
    simp
  · simp [withoutReturns_cons isReturn]

section Sources

variable {source : String} {filename : Option String}

/-- The end of a program is in the same place with its returns and without. -/
theorem finishLocation_spot {source' : String} (paired : PairedReturns source.toList)
    (chars : source'.toList = withoutReturns source.toList) {tokens tokens' : List Token}
    (read : tokensOf source filename = .ok tokens)
    (joined : List.Forall₂ Token.Joined tokens tokens') (name name' : String) :
    (Parser.finishLocation tokens source name).map Location.spot =
      (Parser.finishLocation tokens' source' name').map Location.spot := by
  by_cases nonempty : source = ""
  · -- Nothing is read from an empty text, so its end has no place at all.
    subst nonempty
    rw [tokensOf_empty, Except.ok.injEq] at read
    subst read
    cases joined
    rw [String.toList_eq_nil_iff.mp chars]
    rfl
  · have nonempty' : source' ≠ "" := by
      rintro rfl
      exact paired.withoutReturns_ne_nil (by simpa using nonempty) chars.symm
    rw [Parser.finishLocation_of_source nonempty, Parser.finishLocation_of_source nonempty', chars,
      Option.map_some, Option.map_some, placeAfter_spot paired (some name)]

end Sources

/-- What it means that a text and the text without its returns are read alike: their tokens, their
programs and their errors. -/
structure ReadsJoined (source source' : String) (filename filename' : Option String) : Prop where
  tokens : JoinedTokens (tokensOf source filename) (tokensOf source' filename')
  program : JoinedOutcome (programOfSource source filename) (programOfSource source' filename')

theorem readsJoined_of_chars {source source' : String} (paired : PairedReturns source.toList)
    (chars : source'.toList = withoutReturns source.toList) (filename filename' : Option String) :
    ReadsJoined source source' filename filename' := by
  have start : Lockstep .start .start source.toList := ⟨rfl, .inr rfl⟩
  have stops := scan_stops filename .start source.toList
  have walk := scan_withoutReturns filename filename' paired start
  rw [← chars] at walk
  rcases walk with ⟨joined, rest, pairedRest, ends⟩
  cases shape : (scan filename .start source.toList).rest with
  | nil =>
      rw [shape, withoutReturns_nil] at rest
      have read := tokensOf_of_end shape
      have read' := tokensOf_of_end rest
      constructor
      · rw [read, read']
        exact .tokens joined
      · simp only [programOfSource, read, read']
        exact programOfTokens_joined joined (finishLocation_spot paired chars read joined _ _)
  | cons char later =>
      rw [shape] at stops rest ends
      have visible := Lexeme.isBlank_of_first?_eq_none stops
      have noReturn : char ≠ '\r' := by
        rintro rfl
        exact absurd visible (by decide)
      have noNewline : char ≠ '\n' := by
        rintro rfl
        exact absurd visible (by decide)
      rw [withoutReturns_cons noReturn] at rest
      have sameColumn := ends.column.resolve_left (by simpa using noNewline)
      rcases tokensOf_of_stray shape with ⟨line, fails⟩
      rcases tokensOf_of_stray rest with ⟨line', fails'⟩
      have spot : ((scan filename' .start source'.toList).cursor.location filename').spot =
          ((scan filename .start source.toList).cursor.location filename).spot := by
        simp [Cursor.location, Location.spot, ends.line, sameColumn]
      constructor
      · rw [fails, fails']
        exact .strayCharacter spot
      · simp only [programOfSource, fails, fails']
        exact .strayCharacter spot

/-- Carriage returns before newlines make no difference to reading but in the strings that hold them. The
text without them is also the one that is read from a file. -/
theorem readsJoined_of_paired {source : String} (paired : PairedReturns source.toList)
    (filename filename' : Option String) :
    joinReturns source.toList = withNewlines source.toList ∧
      ReadsJoined source (String.ofList (joinReturns source.toList)) filename filename' := by
  refine ⟨by rw [paired.joinReturns_eq, paired.withNewlines_eq], readsJoined_of_chars paired ?_ ..⟩
  rw [String.toList_ofList, paired.joinReturns_eq]

/-- A string over two lines, and a program that ends too early behind one more. -/
theorem readsJoined_of_paired_string :
    PairedReturns "a \x7b text \"\r\n\"\r\n".toList ∧
      ReadsJoined "a \x7b text \"\r\n\"\r\n" "a \x7b text \"\n\"\n" none none := by
  have paired : PairedReturns "a \x7b text \"\r\n\"\r\n".toList := by decide
  exact ⟨paired, (readsJoined_of_paired paired none none).2⟩

end TermScene
