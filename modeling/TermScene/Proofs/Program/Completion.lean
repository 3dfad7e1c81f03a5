import TermScene.Proofs.Program.Reading
import TermScene.Proofs.Token.Pattern

/-!
# Completing programs

A reading that is stuck for want of a token is stuck at the first token that cannot be there. What was
read before it begins some program: the slots that are open, at every depth, can be filled with tokens
that a text can have. And being stuck depends on nothing behind the token where reading is stuck.
-/

namespace TermScene

namespace TokenKind

/-- A short text of a kind. -/
def sampleText : TokenKind → String
  | .number => "0"
  | .string => "\"\""
  | .identifier => "a"
  | .leftParen => "("
  | .rightParen => ")"
  | .leftBrace => "\x7b"
  | .rightBrace => "\x7d"
  | .leftBracket => "["
  | .rightBracket => "]"
  | .semicolon => ";"
  | .comma => ","
  | .assign => "="
  | .arrow => "->"
  | .whitespace => " "
  | .comment => "//"
  | .endOfFile => ""

/-- A token of a kind, for filling a slot. -/
def sample (kind : TokenKind) : Token := ⟨kind, kind.sampleText, none⟩

theorem sample_isLexeme {kind : TokenKind} (emitted : kind.IsEmitted) : kind.sample.IsLexeme := by
  refine ⟨emitted, ?_⟩
  rcases emitted with ⟨kept, notEnd⟩
  cases kind with
  | number => exact .number (.whole ⟨by simp [sample, sampleText], by simp [sample, sampleText]⟩)
  | string =>
      have noQuote : '"' ∉ ([] : List Char) := List.not_mem_nil
      exact .string noQuote
  | identifier => exact .identifier (by decide) (by simp)
  | whitespace => simp [isKept] at kept
  | comment => simp [isKept] at kept
  | endOfFile => exact absurd rfl notEnd
  | _ => constructor

theorem sample_hasNumber : number.sample.HasNumber (.finite 0) := ⟨rfl, by decide +kernel⟩

theorem sample_hasCount : number.sample.HasCount 0 := ⟨_, sample_hasNumber, by decide +kernel⟩

end TokenKind

/-- The slots of a form; for a block, those behind its commands. -/
def Form.slots : Form → List Slot
  | .simple slots _ => slots
  | .block tail _ => tail

theorem Keyword.slots_emitted (keyword : Keyword) :
    ∀ slot ∈ keyword.form.slots, slot.kind.IsEmitted := by
  unfold TokenKind.IsEmitted
  cases keyword <;> decide

section Slots

variable {slots : List Slot} {front rest : List Token} {wanted : Wanted}

theorem exists_fills (emitted : ∀ slot ∈ slots, slot.kind.IsEmitted) :
    ∃ tokens operands, Fills slots tokens operands ∧ Lexemes tokens := by
  induction slots with
  | nil => exact ⟨[], (), rfl, by simp [Lexemes]⟩
  | cons slot later ih =>
      rcases List.forall_mem_cons.mp emitted with ⟨isEmitted, laterEmitted⟩
      rcases ih laterEmitted with ⟨tokens, operands, fills, lexemes⟩
      have lexemes := lexemes.cons (TokenKind.sample_isLexeme isEmitted)
      cases slot with
      | mark kind => exact ⟨_, operands, fills_mark.mpr ⟨rfl, fills⟩, lexemes⟩
      | number =>
          exact ⟨_, (_, operands), fills_number.mpr ⟨TokenKind.sample_hasNumber, fills⟩, lexemes⟩
      | count =>
          exact ⟨_, (_, operands), fills_count.mpr ⟨TokenKind.sample_hasCount, fills⟩, lexemes⟩
      | string => exact ⟨_, (_, operands), fills_string.mpr ⟨⟨rfl, rfl⟩, fills⟩, lexemes⟩
      | name => exact ⟨_, (_, operands), fills_name.mpr ⟨⟨rfl, rfl⟩, fills⟩, lexemes⟩

theorem exists_fills_cons {slot : Slot} {token : Token} {operands : Operands slots}
    (fits : token.kind = slot.kind) (useful : slot.check token.text = .ok ())
    (fills : Fills slots front operands) :
    ∃ operands', Fills (slot :: slots) (token :: front) operands' := by
  cases slot with
  | mark kind => exact ⟨operands, fills_mark.mpr ⟨fits, fills⟩⟩
  | number =>
      cases read : numberOf token.text with
      | error fault => simp [Slot.check, read, Except.map] at useful
      | ok number =>
          have isNumber := Token.hasNumber_iff.mpr ⟨fits, read⟩
          exact ⟨(number, operands), fills_number.mpr ⟨isNumber, fills⟩⟩
  | count =>
      cases read : countOf token.text with
      | error fault => simp [Slot.check, read, Except.map] at useful
      | ok count =>
          have isCount := Token.hasCount_iff.mpr ⟨fits, read⟩
          exact ⟨(count, operands), fills_count.mpr ⟨isCount, fills⟩⟩
  | string => exact ⟨(token.text, operands), fills_string.mpr ⟨⟨fits, rfl⟩, fills⟩⟩
  | name => exact ⟨(token.text, operands), fills_name.mpr ⟨⟨fits, rfl⟩, fills⟩⟩

/-- A numeral without a use is no want of another token. -/
theorem Slot.check_ne_wanted (slot : Slot) (text : String) :
    slot.check text ≠ .error (.wanted wanted) := by
  have unread : numberOf text ≠ .error (.wanted wanted) := by
    unfold numberOf
    split <;> simp
  cases slot with
  | number => cases read : numberOf text <;> simp_all [check, Except.map]
  | count =>
      cases read : numberOf text with
      | error fault => simp_all [check, countOf_of_error read, Except.map]
      | ok number =>
          cases whole : number.truncate with
          | ok count => simp [check, countOf_of_ok read whole, Except.map]
          | error cause => simp [check, countOf_of_unbounded read whole, Except.map]
  | _ => simp [check]

theorem Breaks.completes (breaks : Breaks slots front (.wanted wanted) rest)
    (emitted : ∀ slot ∈ slots, slot.kind.IsEmitted) :
    ∃ continuation operands, Fills slots (front ++ continuation) operands ∧
      Lexemes continuation := by
  generalize isFault : Fault.wanted wanted = fault at breaks
  induction breaks with
  | kind differs => exact exists_fills emitted
  | value fits useless =>
      subst isFault
      exact absurd useless (Slot.check_ne_wanted _ _)
  | later fits useful breaks ih =>
      rcases ih (List.forall_mem_cons.mp emitted).2 isFault with ⟨continuation, operands, fills,
        lexemes⟩
      rcases exists_fills_cons fits useful fills with ⟨operands', fills'⟩
      exact ⟨continuation, operands', fills', lexemes⟩

end Slots

theorem DerivesCommands.single {tokens : List Token} {command : Command}
    (derives : DerivesCommand tokens command) : DerivesCommands tokens [command] := by
  have commands := DerivesCommands.some derives .none
  rwa [List.append_nil] at commands

section Commands

variable {word left : Token} {keyword : Keyword} {front rest : List Token} {wanted : Wanted}

theorem exists_simple {slots : List Slot}
    {build : Operands slots → Option Location → Command} (known : word.keyword? = some keyword)
    (form : keyword.form = .simple slots build) (breaks : Breaks slots front (.wanted wanted) rest) :
    ∃ continuation command, DerivesCommand (word :: front ++ continuation) command ∧
      Lexemes continuation := by
  have emitted := keyword.slots_emitted
  rw [form] at emitted
  rcases breaks.completes emitted with ⟨continuation, operands, fills, lexemes⟩
  have fillsForm : FillsForm word keyword.form (front ++ continuation)
      (build operands word.location) := by
    rw [form]
    exact ⟨operands, fills, rfl⟩
  exact ⟨continuation, _, .plain (derivesPlain_of_fillsForm known fillsForm), lexemes⟩

variable {tail : List Slot} {build : List Command → Operands tail → Option Location → Command}

theorem exists_block {body : List Token} {commands : List Command}
    (known : word.keyword? = some keyword) (form : keyword.form = .block tail build)
    (opens : left.kind = .leftBrace) (isBody : DerivesCommands body commands) :
    ∃ closing command, DerivesCommand (word :: left :: body ++ closing) command ∧
      Lexemes closing := by
  have emitted := keyword.slots_emitted
  rw [form] at emitted
  rcases exists_fills emitted with ⟨closing, operands, fills, lexemes⟩
  exact ⟨closing, _, derivesCommand_of_block known form opens isBody fills, lexemes⟩

theorem exists_closed_block {body : List Token} {commands : List Command}
    (known : word.keyword? = some keyword) (form : keyword.form = .block tail build)
    (opens : left.kind = .leftBrace) (isBody : DerivesCommands body commands)
    (breaks : Breaks tail front (.wanted wanted) rest) :
    ∃ continuation command,
      DerivesCommand (word :: left :: body ++ front ++ continuation) command ∧
        Lexemes continuation := by
  have emitted := keyword.slots_emitted
  rw [form] at emitted
  rcases breaks.completes emitted with ⟨continuation, operands, fills, lexemes⟩
  have command := derivesCommand_of_block known form opens isBody fills
  rw [← List.append_assoc] at command
  exact ⟨continuation, _, command, lexemes⟩

/-- The commands that were begun can be completed, from the inner ones to the outer ones. -/
theorem Halts.completes (halts : Halts front (.wanted wanted) rest) :
    ∃ continuation commands, DerivesCommands (front ++ continuation) commands ∧
      Lexemes continuation := by
  generalize isFault : Fault.wanted wanted = fault at halts
  induction halts with
  -- Where a command is wanted, the block may as well end.
  | noCommand outside unknown => exact ⟨[], [], .none, by simp [Lexemes]⟩
  | simple known form breaks =>
      subst isFault
      rcases exists_simple known form breaks with ⟨continuation, command, derives, lexemes⟩
      exact ⟨continuation, [command], .single derives, lexemes⟩
  | opening known form differs =>
      have opens : TokenKind.leftBrace.sample.kind = .leftBrace := rfl
      have brace : TokenKind.leftBrace.sample.IsLexeme :=
        TokenKind.sample_isLexeme ⟨rfl, by decide⟩
      rcases exists_block known form opens .none with ⟨closing, command, derives, lexemes⟩
      exact ⟨TokenKind.leftBrace.sample :: closing, [command], .single derives, lexemes.cons brace⟩
  | @inside word left keyword tail build front rest fault known form opens halts ih =>
      rcases ih isFault with ⟨continuation, commands, isBody, lexemes⟩
      rcases exists_block known form opens isBody with ⟨closing, command, derives, lexemes'⟩
      refine ⟨continuation ++ closing, [command], .single ?_, lexemes.append lexemes'⟩
      simpa using derives
  | closing known form opens isBody atEnd breaks =>
      subst isFault
      rcases exists_closed_block known form opens isBody breaks with ⟨continuation, command, derives,
        lexemes⟩
      exact ⟨continuation, [command], .single derives, lexemes⟩
  | later isFirst halts ih =>
      rcases ih isFault with ⟨continuation, commands, isLater, lexemes⟩
      have all := DerivesCommands.some isFirst isLater
      rw [← List.append_assoc] at all
      exact ⟨continuation, _, all, lexemes⟩

/-- What was read of a program that is stuck for want of a token begins some program. -/
theorem ProgramHalts.completes (halts : ProgramHalts front (.wanted wanted) rest) :
    ∃ continuation program, DerivesProgram (front ++ continuation) program ∧
      Lexemes continuation := by
  have brace : Lexemes [TokenKind.rightBrace.sample] :=
    List.forall_mem_singleton.mpr (TokenKind.sample_isLexeme ⟨rfl, by decide⟩)
  have closes : TokenKind.rightBrace.sample.kind = .rightBrace := rfl
  cases halts with
  | opening breaks =>
      have emitted : ∀ slot ∈ [Slot.word, .mark .leftBrace], slot.kind.IsEmitted := by
        unfold TokenKind.IsEmitted
        decide
      rcases breaks.completes emitted with ⟨continuation, operands, fills, lexemes⟩
      rcases fills with ⟨word, _, isFront, starts, left, _, rfl, opens, rfl⟩
      have program := DerivesProgram.program starts opens .none closes
      rw [← isFront, List.append_assoc] at program
      exact ⟨_, _, program, lexemes.append brace⟩
  | inside starts opens halts =>
      rcases halts.completes with ⟨continuation, commands, isBody, lexemes⟩
      have program := DerivesProgram.program starts opens isBody closes
      rw [← List.cons_append, ← List.cons_append, List.append_assoc] at program
      exact ⟨_, _, program, lexemes.append brace⟩
  | closing starts opens isBody atEnd differs =>
      exact ⟨[_], _, .program starts opens isBody closes, brace⟩

end Commands

section Locality

variable {front rest rest' : List Token} {fault : Fault}

theorem Breaks.of_head? {slots : List Slot} (breaks : Breaks slots front fault rest)
    (same : rest'.head? = rest.head?) : Breaks slots front fault rest' := by
  induction breaks with
  | kind differs => exact .kind (same ▸ differs)
  | value fits useless => exact .value fits useless
  | later fits useful breaks ih => exact .later fits useful (ih same)

theorem atBlockEnd_append (front : List Token) (same : rest'.head? = rest.head?) :
    atBlockEnd (front ++ rest') = atBlockEnd (front ++ rest) := by
  rcases front with _ | ⟨token, later⟩
  · rcases rest with _ | ⟨token, later⟩ <;> rcases rest' with _ | ⟨token', later'⟩ <;>
      simp_all [atBlockEnd]
  · rfl

theorem Halts.of_head? (halts : Halts front fault rest) (same : rest'.head? = rest.head?) :
    Halts front fault rest' := by
  induction halts with
  | @noCommand token later outside unknown =>
      rcases rest' with _ | ⟨token', later'⟩
      · simp at same
      · simp only [List.head?_cons, Option.some.injEq] at same
        subst same
        exact .noCommand outside unknown
  | simple known form breaks => exact .simple known form (breaks.of_head? same)
  | opening known form differs => exact .opening known form (same ▸ differs)
  | inside known form opens halts ih => exact .inside known form opens (ih same)
  | closing known form opens isBody atEnd breaks =>
      rw [← atBlockEnd_append _ same] at atEnd
      exact .closing known form opens isBody atEnd (breaks.of_head? same)
  | later isFirst halts ih => exact .later isFirst (ih same)

/-- What comes behind the token where a reading is stuck does not count. -/
theorem ProgramHalts.of_head? (halts : ProgramHalts front fault rest)
    (same : rest'.head? = rest.head?) : ProgramHalts front fault rest' := by
  cases halts with
  | opening breaks => exact .opening (breaks.of_head? same)
  | inside starts opens halts => exact .inside starts opens (halts.of_head? same)
  | closing starts opens isBody atEnd differs =>
      have atEnd' := atBlockEnd_append [] same
      rw [List.nil_append, List.nil_append] at atEnd'
      exact .closing starts opens isBody (atEnd'.trans atEnd) (same ▸ differs)

end Locality

end TermScene
