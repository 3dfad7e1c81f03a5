import TermScene.Diagnostic
import TermScene.Proofs.Program.Completion

/-!
# The earliest error

The error of a parser is at the first token that cannot be there: what comes before it begins a program,
and nothing that begins with it as well does. The code of the diagnostic follows from the same place.
It is the code for the end of the program exactly when all tokens were read, the code for an unknown
command exactly when the token is a word where a command may begin, and the general one otherwise.
-/

namespace TermScene

/-- Tokens of a block up to a place where a command may begin. -/
inductive InBlock : List Token → Prop where
  | start : InBlock []
  | inside {word left : Token} {front : List Token}
      (starts : word.IsWord "frame" ∨ word.IsWord "animate") (opens : left.kind = .leftBrace)
      (inBlock : InBlock front) : InBlock (word :: left :: front)
  | later {first front : List Token} {command : Command} (isFirst : DerivesCommand first command)
      (inBlock : InBlock front) : InBlock (first ++ front)

/-- Tokens of a program up to a place where a command may begin. -/
inductive AtCommand : List Token → Prop where
  | program {word left : Token} {front : List Token} (starts : word.kind = .identifier)
      (opens : left.kind = .leftBrace) (inBlock : InBlock front) : AtCommand (word :: left :: front)

section Commands

variable {token : Token} {front rest : List Token}

theorem Token.keyword?_eq_none_iff :
    token.keyword? = none ↔ ∀ keyword : Keyword, ¬token.IsWord keyword.word := by
  simp only [Option.eq_none_iff_forall_ne_some, ne_eq, keyword?_eq_some_iff]

theorem blockWord_of_form {keyword : Keyword} {tail : List Slot}
    {build : List Command → Operands tail → Option Location → Command}
    (known : token.keyword? = some keyword) (form : keyword.form = .block tail build) :
    token.IsWord "frame" ∨ token.IsWord "animate" := by
  have starts := Token.keyword?_eq_some_iff.mp known
  cases keyword <;> cases form
  · exact .inr starts
  · exact .inl starts

theorem exists_form_of_blockWord (starts : token.IsWord "frame" ∨ token.IsWord "animate") :
    ∃ keyword tail build, token.keyword? = some keyword ∧ keyword.form = .block tail build := by
  rcases starts with starts | starts
  · exact ⟨.frame, _, _, Token.keyword?_eq_some_iff.mpr starts, rfl⟩
  · exact ⟨.animate, _, _, Token.keyword?_eq_some_iff.mpr starts, rfl⟩

theorem Breaks.ne_command {slots : List Slot} (breaks : Breaks slots front (.wanted .command) rest) :
    False := by
  generalize isFault : Fault.wanted .command = fault at breaks
  induction breaks with
  | kind differs => simp at isFault
  | value fits useless =>
      subst isFault
      exact Slot.check_ne_wanted _ _ useless
  | later fits useful breaks ih => exact ih isFault

theorem Halts.inBlock (halts : Halts front (.wanted .command) rest) :
    InBlock front ∧ ∃ token later, rest = token :: later ∧ token.keyword? = none := by
  generalize isFault : Fault.wanted .command = fault at halts
  induction halts with
  | noCommand outside unknown => exact ⟨.start, _, _, rfl, unknown⟩
  | simple known form breaks =>
      subst isFault
      exact breaks.ne_command.elim
  | opening known form differs => simp at isFault
  | inside known form opens halts ih =>
      rcases ih isFault with ⟨inBlock, unknown⟩
      exact ⟨.inside (blockWord_of_form known form) opens inBlock, unknown⟩
  | closing known form opens isBody atEnd breaks =>
      subst isFault
      exact breaks.ne_command.elim
  | later isFirst halts ih =>
      rcases ih isFault with ⟨inBlock, unknown⟩
      exact ⟨.later isFirst inBlock, unknown⟩

theorem InBlock.halts (inBlock : InBlock front) (outside : atBlockEnd (token :: rest) = false)
    (unknown : token.keyword? = none) : Halts front (.wanted .command) (token :: rest) := by
  induction inBlock with
  | start => exact .noCommand outside unknown
  | inside starts opens inBlock ih =>
      rcases exists_form_of_blockWord starts with ⟨keyword, tail, build, known, form⟩
      exact .inside known form opens ih
  | later isFirst inBlock ih => exact .later isFirst ih

theorem ProgramHalts.atCommand (halts : ProgramHalts front (.wanted .command) rest) :
    AtCommand front ∧ ∃ token later, rest = token :: later ∧ token.keyword? = none := by
  cases halts with
  | opening breaks => exact breaks.ne_command.elim
  | inside starts opens halts =>
      rcases halts.inBlock with ⟨inBlock, unknown⟩
      exact ⟨.program starts opens inBlock, unknown⟩

theorem AtCommand.halts (atCommand : AtCommand front) (outside : atBlockEnd (token :: rest) = false)
    (unknown : token.keyword? = none) : ProgramHalts front (.wanted .command) (token :: rest) := by
  cases atCommand with
  | program starts opens inBlock => exact .inside starts opens (inBlock.halts outside unknown)

/-- A reading is stuck in one way only. -/
theorem ProgramHalts.fault_unique {fault fault' : Fault} (halts : ProgramHalts front fault rest)
    (halts' : ProgramHalts front fault' rest) : fault' = fault := by
  have read := readProgram_of_halts halts
  rw [readProgram_of_halts halts', Reading.stuck.injEq] at read
  exact read.1

/-- An unknown word is told as an unknown command where a command may begin, and nowhere else. -/
theorem ProgramHalts.command_iff {wanted : Wanted}
    (halts : ProgramHalts front (.wanted wanted) (token :: rest)) (isWord : token.kind = .identifier) :
    wanted = .command ↔
      (∀ keyword : Keyword, token.text ≠ keyword.word) ∧ AtCommand front := by
  constructor
  · rintro rfl
    rcases halts.atCommand with ⟨atCommand, _, _, same, unknown⟩
    simp only [List.cons.injEq] at same
    rcases same with ⟨rfl, rfl⟩
    refine ⟨?_, atCommand⟩
    intro keyword isText
    exact Token.keyword?_eq_none_iff.mp unknown keyword ⟨isWord, isText⟩
  · rintro ⟨otherWord, atCommand⟩
    have unknown : token.keyword? = none := by
      apply Token.keyword?_eq_none_iff.mpr
      rintro keyword ⟨_, isText⟩
      exact otherWord keyword isText
    have outside : atBlockEnd (token :: rest) = false := by simp [atBlockEnd, isWord]
    have fault := halts.fault_unique (atCommand.halts outside unknown)
    simpa [eq_comm] using fault

end Commands

section Codes

variable (found : Token) (name : String)

theorem unknownCommandStart_length : Diagnostic.unknownCommandStart.length = 15 := by decide

theorem take_expected (text : String) :
    ("Expected " ++ text).toList.take Diagnostic.unknownCommandStart.length ≠
      Diagnostic.unknownCommandStart.toList := by
  rw [String.toList_append, unknownCommandStart_length]
  simp [Diagnostic.unknownCommandStart]

theorem take_unknownCommand (text : String) :
    ("Unknown command: " ++ text).toList.take Diagnostic.unknownCommandStart.length =
      Diagnostic.unknownCommandStart.toList := by
  rw [String.toList_append, unknownCommandStart_length]
  simp [Diagnostic.unknownCommandStart]

theorem code_of_expected {text : String} {location : Option Location} {expected : Option String} :
    (Diagnostic.ofError (.strayToken ("Expected " ++ text) location expected (.token found)) name).code =
      if found.kind = .endOfFile then "E0202" else "E0201" := by
  simp only [Diagnostic.ofError, Diagnostic.classify, take_expected, if_false, Found.isEnd, beq_iff_eq]
  split
  · rfl
  · split <;> rfl

/-- The code of an error at a token follows from what was wanted and what was found. -/
theorem Wanted.code_error (wanted : Wanted) :
    (Diagnostic.ofError (wanted.error found) name).code =
      if wanted = .command ∧ found.kind = .identifier then "E0203"
      else if found.kind = .endOfFile then "E0202"
      else "E0201" := by
  cases wanted with
  | kind wantedKind =>
      simp only [Wanted.error, Wanted.message, String.append_assoc, code_of_expected, reduceCtorEq,
        false_and, if_false]
  | command =>
      by_cases isWord : found.kind = .identifier
      · simp only [Wanted.error, Wanted.message, isWord, if_true, true_and, Diagnostic.ofError,
          Diagnostic.classify, take_unknownCommand]
        rfl
      · have split : "Expected command, got " = "Expected " ++ "command, got " := by decide
        simp only [Wanted.error, Wanted.message, isWord, if_false, and_false, split,
          String.append_assoc, code_of_expected]

theorem Wanted.code_iff (wanted : Wanted) :
    ((Diagnostic.ofError (wanted.error found) name).code = "E0202" ↔ found.kind = .endOfFile) ∧
      ((Diagnostic.ofError (wanted.error found) name).code = "E0203" ↔
        wanted = .command ∧ found.kind = .identifier) ∧
      ((Diagnostic.ofError (wanted.error found) name).code = "E0201" ↔
        found.kind ≠ .endOfFile ∧ ¬(wanted = .command ∧ found.kind = .identifier)) := by
  rw [code_error]
  by_cases unknown : wanted = .command ∧ found.kind = .identifier
  · rw [if_pos unknown]
    simp [unknown]
  · rw [if_neg unknown]
    by_cases atEnd : found.kind = .endOfFile
    · simp [atEnd]
    · simp [atEnd, unknown]

end Codes

/-- A position holds a word that is no command where a command may begin. -/
def UnknownCommandAt (tokens : List Token) (reached : Nat) : Prop :=
  ∃ token, tokens[reached]? = some token ∧ token.kind = .identifier ∧
    (∀ keyword : Keyword, token.text ≠ keyword.word) ∧ AtCommand (tokens.take reached)

theorem ProgramHalts.unknownCommandAt_iff {front rest : List Token} {wanted : Wanted} {finish : Token}
    (halts : ProgramHalts front (.wanted wanted) rest) (isEnd : finish.kind = .endOfFile) :
    (wanted = .command ∧ (rest.head?.getD finish).kind = .identifier) ↔
      UnknownCommandAt (front ++ rest) front.length := by
  unfold UnknownCommandAt
  rw [List.take_left]
  rcases rest with _ | ⟨token, later⟩
  · simp [isEnd]
  · simp only [List.head?_cons, Option.getD_some, Nat.sub_self, List.getElem?_cons_zero,
      List.getElem?_append_right (Nat.le_refl front.length), Option.some.injEq, exists_eq_left']
    constructor
    · rintro ⟨wantsCommand, isWord⟩
      exact ⟨isWord, (halts.command_iff isWord).mp wantsCommand⟩
    · rintro ⟨isWord, unknown⟩
      exact ⟨(halts.command_iff isWord).mpr unknown, isWord⟩

namespace Parser

/-- What an error that was reached at a position says about the tokens and about its code. -/
structure IsEarliest (tokens : List Token) (finish : Token) (reached : Nat) (error : SourceError) :
    Prop where
  tells : ∃ message expected, error =
    .strayToken message (tokens[reached]?.getD finish).location expected
      (.token (tokens[reached]?.getD finish))
  within : reached ≤ tokens.length
  viable : ∃ continuation, Lexemes continuation ∧
    ∀ source filename, Accepts (tokens.take reached ++ continuation) source filename
  rejects : reached < tokens.length →
    ∀ later source filename, ¬Accepts (tokens.take (reached + 1) ++ later) source filename
  endCode : ∀ name, (Diagnostic.ofError error name).code = "E0202" ↔ reached = tokens.length
  endCompletes : reached = tokens.length ↔
    ∃ continuation, Lexemes continuation ∧
      ∀ source filename, Accepts (tokens ++ continuation) source filename
  commandCode : ∀ name,
    (Diagnostic.ofError error name).code = "E0203" ↔ UnknownCommandAt tokens reached
  otherCode : ∀ name, (Diagnostic.ofError error name).code = "E0201" ↔
    reached ≠ tokens.length ∧ ¬UnknownCommandAt tokens reached

theorem halts_of_error {tokens : List Token} {source filename : String} {error : SourceError}
    {moved : Parser} (fails : (ofTokens tokens source filename).parse = (.error (.source error), moved)) :
    ∃ front rest wanted, tokens = front ++ rest ∧ ProgramHalts front (.wanted wanted) rest ∧
      error = wanted.error ((ofTokens tokens source filename).current rest) ∧
        moved.position = front.length := by
  cases reading : readProgram tokens with
  | done program rest =>
      rw [parse_of_done source filename reading] at fails
      simp at fails
  | stuck fault rest =>
      rw [parse_of_stuck source filename reading, Prod.mk.injEq, Except.error.injEq] at fails
      rcases fails with ⟨isError, rfl⟩
      rcases readProgram_eq_stuck_iff.mp reading with ⟨front, rfl, halts⟩
      cases fault with
      | wanted wanted =>
          simp only [failure, ReadFailure.source.injEq] at isError
          exact ⟨front, rest, wanted, rfl, halts, isError.symm, by simp⟩
      | notANumeral text => simp [failure] at isError
      | unbounded cause => simp [failure] at isError

theorem accepts_of_completes {front rest : List Token} {wanted : Wanted}
    (halts : ProgramHalts front (.wanted wanted) rest) :
    ∃ continuation, Lexemes continuation ∧
      ∀ source filename, Accepts (front ++ continuation) source filename := by
  rcases halts.completes with ⟨continuation, program, derives, lexemes⟩
  refine ⟨continuation, lexemes, ?_⟩
  intro source filename
  exact (accepts_iff source filename).mpr ⟨_, program, List.prefix_refl _, derives⟩

theorem exists_rejected {front rest : List Token} {fault : Fault}
    (halts : ProgramHalts front fault rest) (before : front.length < (front ++ rest).length) :
    ∃ token later, rest = token :: later ∧
      ∀ later' source filename, ¬Accepts (front ++ token :: later') source filename := by
  rcases rest with _ | ⟨token, later⟩
  · simp at before
  · refine ⟨token, later, rfl, ?_⟩
    intro later' source filename
    exact not_accepts_of_halts source filename (halts.of_head? rfl)

/-- The error that the parser gives is the earliest one, and its code tells of what sort it is. -/
theorem parse_earliest (tokens : List Token) (source filename : String)
    (noEnd : ∀ token ∈ tokens, token.kind ≠ .endOfFile) {error : SourceError} {moved : Parser}
    (fails : (ofTokens tokens source filename).parse = (.error (.source error), moved)) :
    IsEarliest tokens ⟨.endOfFile, "EOF", finishLocation tokens source filename⟩ moved.position
      error := by
  rcases halts_of_error fails with ⟨front, rest, wanted, rfl, halts, rfl, isPosition⟩
  rw [isPosition]
  let parser := ofTokens (front ++ rest) source filename
  have isHead : (front ++ rest)[front.length]? = rest.head? := by
    rw [List.getElem?_append_right (Nat.le_refl _), Nat.sub_self, List.head?_eq_getElem?]
  have ends : ∀ token ∈ rest, token.kind ≠ .endOfFile := by
    intro token inside
    exact noEnd token (List.mem_append_right front inside)
  have isEnd : (parser.current rest).kind = .endOfFile ↔ front.length = (front ++ rest).length := by
    rw [current_kind source filename ends]
    simp
  have isUnknown : (wanted = .command ∧ (parser.current rest).kind = .identifier) ↔
      UnknownCommandAt (front ++ rest) front.length := halts.unknownCommandAt_iff rfl
  have codes := fun name => wanted.code_iff (parser.current rest) name
  simp only [isEnd, isUnknown, ne_eq] at codes
  refine ⟨?_, ?_, ?_, ?_, ?_, ?_, ?_, ?_⟩
  · rw [isHead]
    exact ⟨_, _, rfl⟩
  · simp
  · rw [List.take_left]
    exact accepts_of_completes halts
  · intro before later' source' filename'
    rcases exists_rejected halts before with ⟨token, later, rfl, rejected⟩
    have taken : (front ++ token :: later).take (front.length + 1) = front ++ [token] := by
      rw [List.take_append, List.take_of_length_le (by omega)]
      simp
    rw [taken, List.append_assoc]
    exact rejected later' source' filename'
  · intro name
    exact (codes name).1
  · constructor
    · intro atEnd
      have nothing : rest = [] := by simpa using atEnd
      rw [nothing, List.append_nil]
      exact accepts_of_completes halts
    · rintro ⟨continuation, _, accepted⟩
      by_contra notAtEnd
      have before : front.length < (front ++ rest).length := by
        simp only [List.length_append] at notAtEnd ⊢
        omega
      rcases exists_rejected halts before with ⟨token, later, rfl, rejected⟩
      have accepts := accepted source filename
      rw [List.append_assoc] at accepts
      exact rejected _ source filename accepts
  · intro name
    exact (codes name).2.1
  · intro name
    exact (codes name).2.2

/-- A word that is no command, in a frame that is still open. -/
theorem parse_earliest_frame :
    ∃ tokens : List Token, tokens.map Token.text = ["scene", "\x7b", "frame", "\x7b", "blink"] ∧
      (∀ token ∈ tokens, token.kind ≠ .endOfFile) ∧
      ∃ error moved, (ofTokens tokens "" inputName).parse = (.error (.source error), moved) ∧
        IsEarliest tokens ⟨.endOfFile, "EOF", finishLocation tokens "" inputName⟩ moved.position
          error := by
  let front : List Token :=
    [⟨.identifier, "scene", none⟩, ⟨.leftBrace, "\x7b", none⟩, ⟨.identifier, "frame", none⟩,
      ⟨.leftBrace, "\x7b", none⟩]
  let unknown : Token := ⟨.identifier, "blink", none⟩
  have noEnd : ∀ token ∈ front ++ [unknown], token.kind ≠ .endOfFile := by decide
  have atCommand : AtCommand front := .program rfl rfl (.inside (.inl ⟨rfl, rfl⟩) rfl .start)
  have halts : ProgramHalts front (.wanted .command) [unknown] :=
    atCommand.halts rfl (by decide +kernel)
  have fails := parse_of_stuck "" inputName (readProgram_of_halts halts)
  exact ⟨front ++ [unknown], rfl, noEnd, _, _, fails,
    parse_earliest (front ++ [unknown]) "" inputName noEnd fails⟩

end Parser

end TermScene
