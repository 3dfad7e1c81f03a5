import TermScene.Proofs.Program.Form

/-!
# What reading commands gives

Reading a block is unfolded once, into equations that say what is read next. From them it follows what
every outcome means: a block that is read to its end is a sequence of commands of the grammar, and every
sequence of commands is read so; and `Halts` says all that a reading can be stuck on. Later proofs use
these two equivalences and do not unfold the reading.
-/

namespace TermScene

/-- Reads one command. -/
def readOne (tokens : List Token) : Reading Command := (readCommand tokens).val

/-- Reads a command of a form, behind its first word. -/
def readForm (form : Form) (place : Option Location) (tokens : List Token) : Reading Command :=
  match form with
  | .simple slots build => (readSlots slots tokens).map fun operands => build operands place
  | .block tail build =>
      (readSlots [.mark .leftBrace] tokens).bind fun _ inside =>
        (readBlock inside).bind fun commands after =>
          (readSlots tail after).map fun operands => build commands operands place

theorem readBlock_eq (tokens : List Token) :
    readBlock tokens =
      if atBlockEnd tokens then .done [] tokens
      else (readOne tokens).bind fun command rest => (readBlock rest).map (command :: ·) := by
  unfold readBlock
  rw [readCommands]
  split
  · rfl
  · unfold readOne
    rcases readCommand tokens with ⟨_ | _, bound⟩
    · rename_i command rest
      simp only [Reading.bind_done]
      rcases readCommands rest with ⟨_ | _, _⟩ <;> rfl
    · rfl

theorem readOne_nil : readOne [] = .stuck (.wanted .command) [] := by
  unfold readOne
  rw [readCommand]

theorem readOne_of_keyword?_eq_none {token : Token} (rest : List Token)
    (unknown : token.keyword? = none) :
    readOne (token :: rest) = .stuck (.wanted .command) (token :: rest) := by
  unfold readOne
  rw [readCommand]
  unfold Token.keyword? at unknown
  by_cases isIdentifier : token.kind = .identifier
  · rw [if_pos isIdentifier] at unknown ⊢
    split
    · rfl
    · simp_all
  · rw [if_neg isIdentifier]

theorem readOne_of_keyword?_eq_some {token : Token} {keyword : Keyword} (rest : List Token)
    (known : token.keyword? = some keyword) :
    readOne (token :: rest) = readForm keyword.form token.location rest := by
  have word := Token.keyword?_eq_some_iff.mp known
  unfold readOne
  rw [readCommand, if_pos word.1]
  split
  · rename_i unknown
    rw [word.2, Keyword.ofWord?_word] at unknown
    simp at unknown
  · rename_i found isKeyword
    rw [word.2, Keyword.ofWord?_word, Option.some.injEq] at isKeyword
    subst isKeyword
    unfold readForm
    cases keyword.form with
    | simple slots build =>
        simp only
        split <;> rename_i read <;> simp only [read, Reading.map_stuck, Reading.map_done]
    | block tail build =>
        simp only
        split
        · rename_i opened
          simp only [opened, Reading.bind_stuck]
        · rename_i inside opened
          simp only [opened, Reading.bind_done, readBlock]
          split
          · rename_i same
            simp only [same, Reading.bind_stuck]
          · rename_i same
            simp only [same, Reading.bind_done]
            split <;> rename_i closed <;> simp only [closed, Reading.map_stuck, Reading.map_done]

theorem readOne_length {tokens rest : List Token} {command : Command}
    (read : readOne tokens = .done command rest) : rest.length < tokens.length := by
  have less := (readCommand tokens).property
  unfold readOne at read
  rw [read] at less
  exact less

/-- All that reading commands up to the end of a block can be stuck on: the tokens read, the fault and
the tokens left. -/
inductive Halts : List Token → Fault → List Token → Prop where
  | noCommand {token : Token} {rest : List Token} (outside : atBlockEnd (token :: rest) = false)
      (unknown : token.keyword? = none) : Halts [] (.wanted .command) (token :: rest)
  | simple {word : Token} {keyword : Keyword} {slots : List Slot}
      {build : Operands slots → Option Location → Command} {front rest : List Token} {fault : Fault}
      (known : word.keyword? = some keyword) (form : keyword.form = .simple slots build)
      (breaks : Breaks slots front fault rest) : Halts (word :: front) fault rest
  | opening {word : Token} {keyword : Keyword} {tail : List Slot}
      {build : List Command → Operands tail → Option Location → Command} {rest : List Token}
      (known : word.keyword? = some keyword) (form : keyword.form = .block tail build)
      (differs : ∀ token ∈ rest.head?, token.kind ≠ .leftBrace) :
      Halts [word] (.wanted (.kind .leftBrace)) rest
  | inside {word left : Token} {keyword : Keyword} {tail : List Slot}
      {build : List Command → Operands tail → Option Location → Command} {front rest : List Token}
      {fault : Fault} (known : word.keyword? = some keyword)
      (form : keyword.form = .block tail build) (opens : left.kind = .leftBrace)
      (halts : Halts front fault rest) : Halts (word :: left :: front) fault rest
  | closing {word left : Token} {keyword : Keyword} {tail : List Slot}
      {build : List Command → Operands tail → Option Location → Command}
      {body front rest : List Token} {commands : List Command} {fault : Fault}
      (known : word.keyword? = some keyword) (form : keyword.form = .block tail build)
      (opens : left.kind = .leftBrace) (isBody : DerivesCommands body commands)
      (atEnd : atBlockEnd (front ++ rest) = true) (breaks : Breaks tail front fault rest) :
      Halts (word :: left :: body ++ front) fault rest
  | later {first front rest : List Token} {command : Command} {fault : Fault}
      (isFirst : DerivesCommand first command) (halts : Halts front fault rest) :
      Halts (first ++ front) fault rest

/-- What a reading of a block says about the tokens it was read from. -/
def BlockOutcome (tokens : List Token) : Reading (List Command) → Prop
  | .done commands rest =>
      ∃ front, tokens = front ++ rest ∧ DerivesCommands front commands ∧ atBlockEnd rest = true
  | .stuck fault rest => ∃ front, tokens = front ++ rest ∧ Halts front fault rest

/-- What a reading of a command says about the tokens it was read from. -/
def CommandOutcome (tokens : List Token) : Reading Command → Prop
  | .done command rest => ∃ front, tokens = front ++ rest ∧ front ≠ [] ∧ DerivesCommand front command
  | .stuck fault rest => ∃ front, tokens = front ++ rest ∧ Halts front fault rest

theorem readForm_outcome {word : Token} {keyword : Keyword} {rest : List Token}
    (known : word.keyword? = some keyword)
    (blocks : ∀ inside : List Token, inside.length ≤ rest.length →
      BlockOutcome inside (readBlock inside)) :
    CommandOutcome (word :: rest) (readForm keyword.form word.location rest) := by
  cases form : keyword.form with
  | simple slots build =>
      simp only [readForm]
      cases read : readSlots slots rest with
      | done operands left =>
          rcases readSlots_eq_done_iff.mp read with ⟨front, rfl, fills⟩
          have fillsForm : FillsForm word keyword.form front (build operands word.location) := by
            rw [form]
            exact ⟨operands, fills, rfl⟩
          exact ⟨word :: front, rfl, by simp, .plain (derivesPlain_of_fillsForm known fillsForm)⟩
      | stuck fault left =>
          rcases readSlots_eq_stuck_iff.mp read with ⟨front, rfl, breaks⟩
          exact ⟨word :: front, rfl, .simple known form breaks⟩
  | block tail build =>
      simp only [readForm]
      cases opened : readSlots [.mark .leftBrace] rest with
      | stuck fault left =>
          rcases readSlots_eq_stuck_iff.mp opened with ⟨front, rfl, breaks⟩
          cases breaks with
          | kind differs => exact ⟨[word], rfl, .opening known form differs⟩
          | value fits useless => simp [Slot.check] at useless
          | later fits useful breaks => cases breaks
      | done _ inside =>
          rcases readSlots_eq_done_iff.mp opened with ⟨_, rfl, left, _, rfl, opens, rfl⟩
          have inner := blocks inside (by simp)
          simp only [Reading.bind_done]
          cases body : readBlock inside with
          | stuck fault rest =>
              rw [body] at inner
              rcases inner with ⟨front, rfl, halts⟩
              exact ⟨word :: left :: front, rfl, .inside known form opens halts⟩
          | done commands after =>
              rw [body] at inner
              rcases inner with ⟨front, rfl, isBody, atEnd⟩
              simp only [Reading.bind_done]
              cases closed : readSlots tail after with
              | done operands rest =>
                  rcases readSlots_eq_done_iff.mp closed with ⟨closing, rfl, closes⟩
                  refine ⟨word :: left :: front ++ closing, by simp, by simp, ?_⟩
                  exact derivesCommand_of_block known form opens isBody closes
              | stuck fault rest =>
                  rcases readSlots_eq_stuck_iff.mp closed with ⟨closing, rfl, breaks⟩
                  refine ⟨word :: left :: front ++ closing, by simp, ?_⟩
                  exact .closing known form opens isBody atEnd breaks

theorem readBlock_outcome (tokens : List Token) : BlockOutcome tokens (readBlock tokens) := by
  -- The inside of a block is not longer than what follows its first word, and a command is not empty,
  -- so both recursive readings are of fewer tokens.
  induction bound : tokens.length using Nat.strongRecOn generalizing tokens with
  | _ size ih =>
      subst bound
      rw [readBlock_eq]
      split
      · rename_i atEnd
        exact ⟨[], rfl, .none, atEnd⟩
      · rename_i outside
        have first : CommandOutcome tokens (readOne tokens) := by
          rcases tokens with _ | ⟨token, rest⟩
          · exact absurd rfl outside
          · cases known : token.keyword? with
            | none =>
                rw [readOne_of_keyword?_eq_none rest known]
                exact ⟨[], rfl, .noCommand (by simpa using outside) known⟩
            | some keyword =>
                rw [readOne_of_keyword?_eq_some rest known]
                apply readForm_outcome known
                intro inside shorter
                exact ih inside.length (by simp; omega) inside rfl
        cases read : readOne tokens with
        | stuck fault rest =>
            rw [read] at first
            exact first
        | done command rest =>
            rw [read] at first
            rcases first with ⟨front, rfl, nonempty, isFirst⟩
            have shorter := List.length_pos_iff.mpr nonempty
            have others := ih rest.length (by simp; omega) rest rfl
            simp only [Reading.bind_done]
            cases more : readBlock rest with
            | stuck fault left =>
                rw [more] at others
                rcases others with ⟨later, rfl, halts⟩
                exact ⟨front ++ later, by simp, .later isFirst halts⟩
            | done commands left =>
                rw [more] at others
                rcases others with ⟨later, rfl, isLater, atEnd⟩
                exact ⟨front ++ later, by simp, .some isFirst isLater, atEnd⟩

section Starts

variable {token : Token} {keyword : Keyword}

theorem atBlockEnd_of_keyword? (known : token.keyword? = some keyword) (rest : List Token) :
    atBlockEnd (token :: rest) = false := by
  have isIdentifier := (Token.keyword?_eq_some_iff.mp known).1
  simp [atBlockEnd, isIdentifier]

theorem readBlock_of_keyword? (known : token.keyword? = some keyword) (rest : List Token) :
    readBlock (token :: rest) =
      (readForm keyword.form token.location rest).bind fun command left =>
        (readBlock left).map (command :: ·) := by
  rw [readBlock_eq, atBlockEnd_of_keyword? known, readOne_of_keyword?_eq_some rest known]
  rfl

theorem readForm_block {tail : List Slot} (place : Option Location)
    (build : List Command → Operands tail → Option Location → Command)
    (opens : token.kind = .leftBrace) (inside : List Token) :
    readForm (.block tail build) place (token :: inside) =
      (readBlock inside).bind fun commands after =>
        (readSlots tail after).map fun operands => build commands operands place := by
  simp [readForm, readSlots, opens]

/-- A block whose commands are read is closed by the slots of its form. -/
theorem readOne_of_block {left : Token} {tail : List Slot} {operands : Operands tail}
    {build : List Command → Operands tail → Option Location → Command}
    {body closing : List Token} {commands : List Command} (rest : List Token)
    (known : token.keyword? = some keyword) (form : keyword.form = .block tail build)
    (opens : left.kind = .leftBrace)
    (inner : readBlock (body ++ (closing ++ rest)) = .done commands (closing ++ rest))
    (closes : Fills tail closing operands) :
    readOne (token :: left :: body ++ closing ++ rest) =
      .done (build commands operands token.location) rest := by
  have closed : readSlots tail (closing ++ rest) = .done operands rest :=
    readSlots_eq_done_iff.mpr ⟨closing, rfl, closes⟩
  simp only [List.cons_append, List.append_assoc]
  rw [readOne_of_keyword?_eq_some _ known, form, readForm_block _ _ opens, inner]
  simp only [Reading.bind_done, closed, Reading.map_done]

end Starts

theorem DerivesCommand.starts {tokens : List Token} {command : Command}
    (derives : DerivesCommand tokens command) :
    ∃ word rest keyword, tokens = word :: rest ∧ word.keyword? = some keyword := by
  cases derives with
  | plain isPlain =>
      rcases isPlain.fillsForm with ⟨word, rest, keyword, isFront, known, _⟩
      exact ⟨word, rest, keyword, isFront, known⟩
  | frame starts => exact ⟨_, _, .frame, rfl, Token.keyword?_eq_some_iff.mpr starts⟩
  | animate starts => exact ⟨_, _, .animate, rfl, Token.keyword?_eq_some_iff.mpr starts⟩

theorem readOne_of_derivesPlain {front : List Token} {command : Command}
    (isPlain : DerivesPlain front command) (rest : List Token) :
    readOne (front ++ rest) = .done command rest := by
  rcases isPlain.fillsForm with ⟨word, behind, keyword, rfl, known, fills⟩
  rw [List.cons_append, readOne_of_keyword?_eq_some _ known]
  cases form : keyword.form with
  | simple slots build =>
      rw [form] at fills
      rcases fills with ⟨operands, fills, rfl⟩
      have read : readSlots slots (behind ++ rest) = .done operands rest :=
        readSlots_eq_done_iff.mpr ⟨behind, rfl, fills⟩
      simp only [readForm, read, Reading.map_done]
  | block tail build =>
      rw [form] at fills
      exact absurd fills id

mutual

theorem readOne_of_derives {front : List Token} {command : Command} :
    DerivesCommand front command → ∀ rest, readOne (front ++ rest) = .done command rest
  | .plain isPlain, rest => readOne_of_derivesPlain isPlain rest
  | @DerivesCommand.frame word left right body commands starts opens isBody closes, rest => by
      have known : word.keyword? = some .frame := Token.keyword?_eq_some_iff.mpr starts
      have inner := readBlock_of_derives isBody ([right] ++ rest) (by simp [atBlockEnd, closes])
      have fills : Fills [.mark .rightBrace] [right] () := by simp [closes]
      have read := readOne_of_block rest known rfl opens inner fills
      exact read
  | @DerivesCommand.animate word left right for' time stop body children duration starts opens
      isBody closes isFor isTime stops, rest => by
      have known : word.keyword? = some .animate := Token.keyword?_eq_some_iff.mpr starts
      have inner := readBlock_of_derives isBody ([right, for', time, stop] ++ rest)
        (by simp [atBlockEnd, closes])
      have fills : Fills [.mark .rightBrace, .word, .count, .mark .semicolon]
          [right, for', time, stop] (duration, ()) := by
        simp [closes, isFor, isTime, stops]
      have read := readOne_of_block rest known rfl opens inner fills
      exact read

theorem readBlock_of_derives {front : List Token} {commands : List Command} :
    DerivesCommands front commands → ∀ rest, atBlockEnd rest = true →
      readBlock (front ++ rest) = .done commands rest
  | .none, rest, atEnd => by
      rw [List.nil_append, readBlock_eq, atEnd]
      rfl
  | .some isFirst isLater, rest, atEnd => by
      rename_i first later command commands
      have outside : atBlockEnd (first ++ later ++ rest) = false := by
        rcases isFirst.starts with ⟨word, behind, keyword, rfl, known⟩
        exact atBlockEnd_of_keyword? known _
      rw [readBlock_eq, outside, List.append_assoc, readOne_of_derives isFirst]
      simp only [Reading.bind_done, readBlock_of_derives isLater rest atEnd, Reading.map_done,
        Bool.false_eq_true, if_false]

end

theorem readBlock_of_halts {front rest : List Token} {fault : Fault}
    (halts : Halts front fault rest) : readBlock (front ++ rest) = .stuck fault rest := by
  induction halts with
  | noCommand outside unknown =>
      rw [List.nil_append, readBlock_eq, outside, readOne_of_keyword?_eq_none _ unknown]
      rfl
  | @simple word keyword slots build front rest fault known form breaks =>
      have stuck : readSlots slots (front ++ rest) = .stuck fault rest :=
        readSlots_eq_stuck_iff.mpr ⟨front, rfl, breaks⟩
      rw [List.cons_append, readBlock_of_keyword? known, form]
      simp only [readForm, stuck, Reading.map_stuck, Reading.bind_stuck]
  | @opening word keyword tail build rest known form differs =>
      have stuck : readSlots [.mark .leftBrace] rest = .stuck (.wanted (.kind .leftBrace)) rest :=
        readSlots_eq_stuck_iff.mpr ⟨[], rfl, .kind differs⟩
      rw [List.singleton_append, readBlock_of_keyword? known, form]
      simp only [readForm, stuck, Reading.bind_stuck]
  | inside known form opens halts ih =>
      simp only [List.cons_append]
      rw [readBlock_of_keyword? known, form, readForm_block _ _ opens, ih]
      rfl
  | @closing word left keyword tail build body front rest commands fault known form opens isBody
      atEnd breaks =>
      have stuck : readSlots tail (front ++ rest) = .stuck fault rest :=
        readSlots_eq_stuck_iff.mpr ⟨front, rfl, breaks⟩
      simp only [List.cons_append, List.append_assoc]
      rw [readBlock_of_keyword? known, form, readForm_block _ _ opens,
        readBlock_of_derives isBody _ atEnd]
      simp only [Reading.bind_done, stuck, Reading.map_stuck, Reading.bind_stuck]
  | @later first front rest command fault isFirst halts ih =>
      have outside : atBlockEnd (first ++ front ++ rest) = false := by
        rcases isFirst.starts with ⟨word, behind, keyword, rfl, known⟩
        exact atBlockEnd_of_keyword? known _
      rw [readBlock_eq, outside, List.append_assoc, readOne_of_derives isFirst]
      simp only [Reading.bind_done, ih, Reading.map_stuck, Bool.false_eq_true, if_false]

theorem readBlock_eq_done_iff {tokens rest : List Token} {commands : List Command} :
    readBlock tokens = .done commands rest ↔
      ∃ front, tokens = front ++ rest ∧ DerivesCommands front commands ∧ atBlockEnd rest = true := by
  constructor
  · intro read
    have outcome := readBlock_outcome tokens
    rw [read] at outcome
    exact outcome
  · rintro ⟨front, rfl, derives, atEnd⟩
    exact readBlock_of_derives derives rest atEnd

theorem readBlock_eq_stuck_iff {tokens rest : List Token} {fault : Fault} :
    readBlock tokens = .stuck fault rest ↔
      ∃ front, tokens = front ++ rest ∧ Halts front fault rest := by
  constructor
  · intro read
    have outcome := readBlock_outcome tokens
    rw [read] at outcome
    exact outcome
  · rintro ⟨front, rfl, halts⟩
    exact readBlock_of_halts halts

/-- All that reading a program can be stuck on. -/
inductive ProgramHalts : List Token → Fault → List Token → Prop where
  | opening {front rest : List Token} {fault : Fault}
      (breaks : Breaks [.word, .mark .leftBrace] front fault rest) : ProgramHalts front fault rest
  | inside {word left : Token} {front rest : List Token} {fault : Fault}
      (starts : word.kind = .identifier) (opens : left.kind = .leftBrace)
      (halts : Halts front fault rest) : ProgramHalts (word :: left :: front) fault rest
  | closing {word left : Token} {body rest : List Token} {commands : List Command}
      (starts : word.kind = .identifier) (opens : left.kind = .leftBrace)
      (isBody : DerivesCommands body commands) (atEnd : atBlockEnd rest = true)
      (differs : ∀ token ∈ rest.head?, token.kind ≠ .rightBrace) :
      ProgramHalts (word :: left :: body) (.wanted (.kind .rightBrace)) rest

section Faults

variable {front rest : List Token} {fault : Fault}

/-- A fault is that another token is wanted, or that the last token read is of no use to its slot. -/
def IsFaultOf (fault : Fault) (front : List Token) : Prop :=
  (∃ wanted, fault = .wanted wanted) ∨
    ∃ before token slot, front = before ++ [token] ∧ token.kind = Slot.kind slot ∧
      slot.check token.text = .error fault

theorem IsFaultOf.append (isFault : IsFaultOf fault front) (before : List Token) :
    IsFaultOf fault (before ++ front) := by
  rcases isFault with isWanted | ⟨before', token, slot, rfl, fits, useless⟩
  · exact .inl isWanted
  · exact .inr ⟨before ++ before', token, slot, by simp, fits, useless⟩

theorem Breaks.isFaultOf {slots : List Slot} (breaks : Breaks slots front fault rest) :
    IsFaultOf fault front := by
  induction breaks with
  | kind differs => exact .inl ⟨_, rfl⟩
  | value fits useless => exact .inr ⟨[], _, _, rfl, fits, useless⟩
  | @later slot later token front rest fault fits useful breaks ih => exact ih.append [token]

theorem Halts.isFaultOf (halts : Halts front fault rest) : IsFaultOf fault front := by
  induction halts with
  | noCommand outside unknown => exact .inl ⟨_, rfl⟩
  | @simple word keyword slots build front rest fault known form breaks =>
      exact breaks.isFaultOf.append [word]
  | opening known form differs => exact .inl ⟨_, rfl⟩
  | @inside word left keyword tail build front rest fault known form opens halts ih =>
      exact ih.append [word, left]
  | closing known form opens isBody atEnd breaks => exact breaks.isFaultOf.append _
  | later isFirst halts ih => exact ih.append _

theorem ProgramHalts.isFaultOf (halts : ProgramHalts front fault rest) : IsFaultOf fault front := by
  cases halts with
  | opening breaks => exact breaks.isFaultOf
  | @inside word left front rest fault starts opens halts => exact halts.isFaultOf.append [word, left]
  | closing starts opens isBody atEnd differs => exact .inl ⟨_, rfl⟩

end Faults

theorem readProgram_block {word left : Token} (starts : word.kind = .identifier)
    (opens : left.kind = .leftBrace) (inside : List Token) :
    readProgram (word :: left :: inside) =
      (readBlock inside).bind fun commands after =>
        (readSlots [.mark .rightBrace] after).map fun _ => ⟨commands, word.location⟩ := by
  simp [readProgram, readSlots, starts, opens]

theorem readProgram_of_derives {front : List Token} {program : Program}
    (derives : DerivesProgram front program) (rest : List Token) :
    readProgram (front ++ rest) = .done program rest := by
  cases derives with
  | program starts opens isBody closes =>
      simp only [List.cons_append, List.append_assoc]
      rw [readProgram_block starts opens, readBlock_of_derives isBody _ (by simp [atBlockEnd, closes])]
      simp [readSlots, closes]

theorem readProgram_of_halts {front rest : List Token} {fault : Fault}
    (halts : ProgramHalts front fault rest) : readProgram (front ++ rest) = .stuck fault rest := by
  cases halts with
  | opening breaks =>
      have stuck := readSlots_eq_stuck_iff.mpr ⟨front, rfl, breaks⟩
      simp only [readProgram, stuck, Reading.bind_stuck]
  | inside starts opens halts =>
      simp only [List.cons_append]
      rw [readProgram_block starts opens, readBlock_of_halts halts]
      rfl
  | closing starts opens isBody atEnd differs =>
      have breaks : Breaks [.mark .rightBrace] [] (.wanted (.kind .rightBrace)) rest := .kind differs
      have stuck : readSlots [.mark .rightBrace] rest = .stuck (.wanted (.kind .rightBrace)) rest :=
        readSlots_eq_stuck_iff.mpr ⟨[], rfl, breaks⟩
      simp only [List.cons_append]
      rw [readProgram_block starts opens, readBlock_of_derives isBody _ atEnd]
      simp only [Reading.bind_done, stuck, Reading.map_stuck]

/-- What a reading of a program says about the tokens it was read from. -/
theorem readProgram_outcome (tokens : List Token) :
    match readProgram tokens with
    | .done program rest => ∃ front, tokens = front ++ rest ∧ DerivesProgram front program
    | .stuck fault rest => ∃ front, tokens = front ++ rest ∧ ProgramHalts front fault rest := by
  cases opened : readSlots [.word, .mark .leftBrace] tokens with
  | stuck fault rest =>
      rcases readSlots_eq_stuck_iff.mp opened with ⟨front, rfl, breaks⟩
      simp only [readProgram, opened, Reading.bind_stuck]
      exact ⟨front, rfl, .opening breaks⟩
  | done _ inside =>
      rcases readSlots_eq_done_iff.mp opened with ⟨_, rfl, word, _, rfl, starts, left, _, rfl, opens,
        rfl⟩
      simp only [List.cons_append, List.nil_append]
      rw [readProgram_block starts opens]
      cases body : readBlock inside with
      | stuck fault rest =>
          rcases readBlock_eq_stuck_iff.mp body with ⟨front, rfl, halts⟩
          exact ⟨word :: left :: front, rfl, .inside starts opens halts⟩
      | done commands after =>
          rcases readBlock_eq_done_iff.mp body with ⟨front, rfl, isBody, atEnd⟩
          simp only [Reading.bind_done]
          cases closed : readSlots [.mark .rightBrace] after with
          | done _ rest =>
              rcases readSlots_eq_done_iff.mp closed with ⟨_, rfl, right, _, rfl, closes, rfl⟩
              exact ⟨word :: left :: front ++ [right], by simp, .program starts opens isBody closes⟩
          | stuck fault rest =>
              rcases readSlots_eq_stuck_iff.mp closed with ⟨closing, rfl, breaks⟩
              cases breaks with
              | kind differs =>
                  exact ⟨word :: left :: front, by simp, .closing starts opens isBody atEnd differs⟩
              | value fits useless => simp [Slot.check] at useless
              | later fits useful breaks => cases breaks

theorem readProgram_eq_done_iff {tokens rest : List Token} {program : Program} :
    readProgram tokens = .done program rest ↔
      ∃ front, tokens = front ++ rest ∧ DerivesProgram front program := by
  constructor
  · intro read
    have outcome := readProgram_outcome tokens
    rw [read] at outcome
    exact outcome
  · rintro ⟨front, rfl, derives⟩
    exact readProgram_of_derives derives rest

theorem readProgram_eq_stuck_iff {tokens rest : List Token} {fault : Fault} :
    readProgram tokens = .stuck fault rest ↔
      ∃ front, tokens = front ++ rest ∧ ProgramHalts front fault rest := by
  constructor
  · intro read
    have outcome := readProgram_outcome tokens
    rw [read] at outcome
    exact outcome
  · rintro ⟨front, rfl, halts⟩
    exact readProgram_of_halts halts

namespace Parser

variable {tokens rest : List Token} (source filename : String)

/-- The reading decides the outcome, and the position is where it stopped. -/
theorem parse_of_done {program : Program} (read : readProgram tokens = .done program rest) :
    (ofTokens tokens source filename).parse =
      (.ok ⟨program,
          if ((ofTokens tokens source filename).current rest).kind = .endOfFile then 0
          else rest.length⟩,
        { ofTokens tokens source filename with position := tokens.length - rest.length }) := by
  simp only [parse, leaving, remaining, ofTokens, List.drop_zero, read, Nat.zero_add]

theorem parse_of_stuck {fault : Fault} (read : readProgram tokens = .stuck fault rest) :
    (ofTokens tokens source filename).parse =
      (.error ((ofTokens tokens source filename).failure fault rest),
        { ofTokens tokens source filename with position := tokens.length - rest.length }) := by
  simp only [parse, leaving, remaining, ofTokens, List.drop_zero, read, Nat.zero_add]

theorem current_kind (noEnd : ∀ token ∈ rest, token.kind ≠ .endOfFile) :
    ((ofTokens tokens source filename).current rest).kind = .endOfFile ↔ rest = [] := by
  cases rest with
  | nil => simp [current, ofTokens]
  | cons token later => simp [current, noEnd token]

theorem programOfTokens_of_derives {front : List Token} {program : Program}
    (derives : DerivesProgram front program) (begins : front <+: tokens) :
    ∃ read, programOfTokens tokens source filename = .ok read ∧ read.program = program := by
  rcases begins with ⟨rest, rfl⟩
  have parsed := parse_of_done source filename (readProgram_of_derives derives rest)
  exact ⟨_, congrArg Prod.fst parsed, rfl⟩

theorem derives_of_programOfTokens {read : ReadProgram}
    (reads : programOfTokens tokens source filename = .ok read) :
    ∃ front, front <+: tokens ∧ DerivesProgram front read.program := by
  unfold programOfTokens at reads
  cases reading : readProgram tokens with
  | done program rest =>
      simp only [parse_of_done source filename reading, Except.ok.injEq] at reads
      subst reads
      rcases readProgram_eq_done_iff.mp reading with ⟨front, rfl, derives⟩
      exact ⟨front, List.prefix_append front rest, derives⟩
  | stuck fault rest => simp [parse_of_stuck source filename reading] at reads

/-- Whether the parser returns a program. -/
def Accepts (tokens : List Token) (source filename : String) : Prop :=
  ∃ read, ((ofTokens tokens source filename).parse).1 = .ok read

theorem accepts_iff :
    Accepts tokens source filename ↔
      ∃ front program, front <+: tokens ∧ DerivesProgram front program := by
  constructor
  · rintro ⟨read, isRead⟩
    rcases derives_of_programOfTokens source filename isRead with ⟨front, begins, derives⟩
    exact ⟨front, read.program, begins, derives⟩
  · rintro ⟨front, program, begins, derives⟩
    rcases programOfTokens_of_derives source filename derives begins with ⟨read, reads, -⟩
    exact ⟨read, reads⟩

theorem not_accepts_of_halts {front : List Token} {fault : Fault}
    (halts : ProgramHalts front fault rest) : ¬Accepts (front ++ rest) source filename := by
  rintro ⟨read, isRead⟩
  rw [parse_of_stuck source filename (readProgram_of_halts halts)] at isRead
  simp at isRead

end Parser

end TermScene
