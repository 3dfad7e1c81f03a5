import TermScene.Program.Parser
import TermScene.Proofs.Program.Grammar

/-!
# Reading slots

What reading a sequence of slots gives is said in two relations. `Fills` holds of tokens that fill all
slots and of the operands that they give; `Breaks` holds of tokens after which reading is stuck: at a
token of another kind than the next slot takes, or just after a numeral whose slot cannot use it.
Together they cover every outcome, and neither looks at a token that was not read, but for the one
where reading is stuck.
-/

namespace TermScene

/-- Tokens that fill slots, one each, and the operands that they give. -/
def Fills : (slots : List Slot) → List Token → Operands slots → Prop
  | [], tokens, _ => tokens = []
  | .mark kind :: later, tokens, operands =>
      ∃ token rest, tokens = token :: rest ∧ token.kind = kind ∧ Fills later rest operands
  | .number :: later, tokens, (number, operands) =>
      ∃ token rest, tokens = token :: rest ∧ token.HasNumber number ∧ Fills later rest operands
  | .count :: later, tokens, (count, operands) =>
      ∃ token rest, tokens = token :: rest ∧ token.HasCount count ∧ Fills later rest operands
  | .string :: later, tokens, (text, operands) =>
      ∃ token rest, tokens = token :: rest ∧ (token.kind = .string ∧ token.text = text) ∧
        Fills later rest operands
  | .name :: later, tokens, (text, operands) =>
      ∃ token rest, tokens = token :: rest ∧ (token.kind = .identifier ∧ token.text = text) ∧
        Fills later rest operands

section FillsCons

variable {later : List Slot} {token : Token} {rest : List Token}

@[simp]
theorem fills_nil {tokens : List Token} {operands : Operands []} :
    Fills [] tokens operands ↔ tokens = [] := Iff.rfl

@[simp]
theorem fills_mark {kind : TokenKind} {operands : Operands (.mark kind :: later)} :
    Fills (.mark kind :: later) (token :: rest) operands ↔
      token.kind = kind ∧ Fills later rest operands := by
  simp [Fills, and_assoc]

@[simp]
theorem fills_number {operands : Operands (.number :: later)} :
    Fills (.number :: later) (token :: rest) operands ↔
      token.HasNumber operands.1 ∧ Fills later rest operands.2 := by
  simp [Fills, and_assoc]

@[simp]
theorem fills_count {operands : Operands (.count :: later)} :
    Fills (.count :: later) (token :: rest) operands ↔
      token.HasCount operands.1 ∧ Fills later rest operands.2 := by
  simp [Fills, and_assoc]

@[simp]
theorem fills_string {operands : Operands (.string :: later)} :
    Fills (.string :: later) (token :: rest) operands ↔
      (token.kind = .string ∧ token.text = operands.1) ∧ Fills later rest operands.2 := by
  simp [Fills, and_assoc]

@[simp]
theorem fills_name {operands : Operands (.name :: later)} :
    Fills (.name :: later) (token :: rest) operands ↔
      (token.kind = .identifier ∧ token.text = operands.1) ∧ Fills later rest operands.2 := by
  simp [Fills, and_assoc]

end FillsCons

namespace Slot

/-- Whether a token of the right kind is of use to a slot, and why not. -/
def check (slot : Slot) (text : String) : Except Fault Unit :=
  match slot with
  | .number => (numberOf text).map fun _ => ()
  | .count => (countOf text).map fun _ => ()
  | _ => .ok ()

end Slot

/-- Tokens after which slots cannot be filled further, the fault and the tokens that are left. -/
inductive Breaks : List Slot → List Token → Fault → List Token → Prop where
  | kind {slot : Slot} {later : List Slot} {rest : List Token}
      (differs : ∀ token ∈ rest.head?, token.kind ≠ slot.kind) :
      Breaks (slot :: later) [] (.wanted (.kind slot.kind)) rest
  | value {slot : Slot} {later : List Slot} {token : Token} {fault : Fault} {rest : List Token}
      (fits : token.kind = slot.kind) (useless : slot.check token.text = .error fault) :
      Breaks (slot :: later) [token] fault rest
  | later {slot : Slot} {later : List Slot} {token : Token} {front rest : List Token} {fault : Fault}
      (fits : token.kind = slot.kind) (useful : slot.check token.text = .ok ())
      (breaks : Breaks later front fault rest) :
      Breaks (slot :: later) (token :: front) fault rest

namespace Reading

@[simp]
theorem map_done {α β : Type} (make : α → β) (value : α) (rest : List Token) :
    (Reading.done value rest).map make = .done (make value) rest := rfl

@[simp]
theorem map_stuck {α β : Type} (make : α → β) (fault : Fault) (rest : List Token) :
    (Reading.stuck fault rest : Reading α).map make = .stuck fault rest := rfl

@[simp]
theorem bind_done {α β : Type} (value : α) (rest : List Token)
    (next : α → List Token → Reading β) : (Reading.done value rest).bind next = next value rest := rfl

@[simp]
theorem bind_stuck {α β : Type} (fault : Fault) (rest : List Token)
    (next : α → List Token → Reading β) :
    (Reading.stuck fault rest : Reading α).bind next = .stuck fault rest := rfl

theorem map_eq_done_iff {α β : Type} {reading : Reading α} {make : α → β} {value : β}
    {rest : List Token} :
    reading.map make = .done value rest ↔ ∃ source, reading = .done source rest ∧ make source = value := by
  cases reading with
  | done source left =>
      simp only [map, done.injEq]
      constructor
      · rintro ⟨rfl, rfl⟩
        exact ⟨source, ⟨rfl, rfl⟩, rfl⟩
      · rintro ⟨_, ⟨rfl, rfl⟩, rfl⟩
        exact ⟨rfl, rfl⟩
  | stuck fault left => simp [map]

theorem map_pair_eq_done_iff {α β : Type} {reading : Reading β} {value : α} {pair : α × β}
    {rest : List Token} :
    (reading.map fun later => (value, later)) = .done pair rest ↔
      value = pair.1 ∧ reading = .done pair.2 rest := by
  rw [map_eq_done_iff]
  constructor
  · rintro ⟨later, isDone, rfl⟩
    exact ⟨rfl, isDone⟩
  · rintro ⟨rfl, isDone⟩
    exact ⟨pair.2, isDone, rfl⟩

theorem map_eq_stuck_iff {α β : Type} {reading : Reading α} {make : α → β} {fault : Fault}
    {rest : List Token} : reading.map make = .stuck fault rest ↔ reading = .stuck fault rest := by
  cases reading <;> simp [map]

end Reading

section Fronts

variable {token : Token} {tail rest : List Token} {first : Token → Prop} {others : List Token → Prop}

/-- A nonempty part read off the front of some tokens is their first token and a part read off the
tokens behind it. -/
theorem exists_front_cons_iff :
    (∃ front, token :: tail = front ++ rest ∧
        ∃ leading remaining, front = leading :: remaining ∧ first leading ∧ others remaining) ↔
      first token ∧ ∃ front, tail = front ++ rest ∧ others front := by
  constructor
  · rintro ⟨_, split, leading, remaining, rfl, isFirst, isOther⟩
    simp only [List.cons_append, List.cons.injEq] at split
    rcases split with ⟨rfl, split⟩
    exact ⟨isFirst, remaining, split, isOther⟩
  · rintro ⟨isFirst, front, rfl, isOther⟩
    exact ⟨token :: front, rfl, token, front, rfl, isFirst, isOther⟩

theorem not_exists_front_nil :
    ¬∃ front, [] = front ++ rest ∧
        ∃ leading remaining, front = leading :: remaining ∧ first leading ∧ others remaining := by
  rintro ⟨_, split, leading, remaining, rfl, _, _⟩
  simp at split

end Fronts

theorem numberOf_eq_ok_iff {text : String} {number : Binary64} :
    numberOf text = .ok number ↔ Binary64.ofText? text = some number := by
  unfold numberOf
  split <;> simp_all

theorem Token.hasNumber_iff {token : Token} {number : Binary64} :
    token.HasNumber number ↔ token.kind = .number ∧ numberOf token.text = .ok number := by
  rw [HasNumber, numberOf_eq_ok_iff]

section Counts

variable {text : String} {number : Binary64}

theorem countOf_of_ok {count : Int} (read : numberOf text = .ok number)
    (whole : number.truncate = .ok count) : countOf text = .ok count := by
  simp only [countOf, read, whole]
  rfl

theorem countOf_of_unbounded {cause : Binary64.Unbounded} (read : numberOf text = .ok number)
    (endless : number.truncate = .error cause) : countOf text = .error (.unbounded cause) := by
  simp only [countOf, read, endless]
  rfl

theorem countOf_of_error {fault : Fault} (unread : numberOf text = .error fault) :
    countOf text = .error fault := by
  simp only [countOf, unread]

end Counts

theorem countOf_eq_ok_iff {text : String} {count : Int} :
    countOf text = .ok count ↔
      ∃ number, Binary64.ofText? text = some number ∧ number.truncate = .ok count := by
  cases read : numberOf text with
  | error fault =>
      have unread : ∀ number, Binary64.ofText? text ≠ some number := by
        intro number found
        rw [numberOf_eq_ok_iff.mpr found] at read
        simp at read
      simp [countOf_of_error read, unread]
  | ok number =>
      have found := numberOf_eq_ok_iff.mp read
      cases whole : number.truncate with
      | ok count' => simp [countOf_of_ok read whole, found, whole]
      | error cause => simp [countOf_of_unbounded read whole, found, whole]

theorem Token.hasCount_iff {token : Token} {count : Int} :
    token.HasCount count ↔ token.kind = .number ∧ countOf token.text = .ok count := by
  simp only [HasCount, HasNumber, countOf_eq_ok_iff, and_assoc, exists_and_left]

theorem readSlots_eq_done_iff {slots : List Slot} {tokens rest : List Token}
    {operands : Operands slots} :
    readSlots slots tokens = .done operands rest ↔
      ∃ front, tokens = front ++ rest ∧ Fills slots front operands := by
  induction slots generalizing tokens with
  | nil => cases tokens <;> simp [readSlots, Fills]
  | cons slot later ih =>
      cases tokens with
      | nil =>
          cases slot <;> simp only [readSlots, Fills, not_exists_front_nil, reduceCtorEq]
      | cons token tail =>
          cases slot with
          | mark kind =>
              simp only [readSlots, Fills, exists_front_cons_iff, ← ih]
              split <;> simp_all
          | number =>
              simp only [readSlots, Fills, exists_front_cons_iff, ← ih, Token.hasNumber_iff]
              split
              · cases numberOf token.text <;>
                  simp_all [Reading.map_pair_eq_done_iff]
              · simp_all
          | count =>
              simp only [readSlots, Fills, exists_front_cons_iff, ← ih, Token.hasCount_iff]
              split
              · cases countOf token.text <;>
                  simp_all [Reading.map_pair_eq_done_iff]
              · simp_all
          | string =>
              simp only [readSlots, Fills, exists_front_cons_iff, ← ih]
              split <;> simp_all [Reading.map_pair_eq_done_iff]
          | name =>
              simp only [readSlots, Fills, exists_front_cons_iff, ← ih]
              split <;> simp_all [Reading.map_pair_eq_done_iff]

/-- One token decides about one slot. -/
theorem readSlots_cons_eq_stuck_iff {slot : Slot} {later : List Slot} {token : Token}
    {tail rest : List Token} {fault : Fault} :
    readSlots (slot :: later) (token :: tail) = .stuck fault rest ↔
      (token.kind ≠ slot.kind ∧ fault = .wanted (.kind slot.kind) ∧ rest = token :: tail) ∨
        (token.kind = slot.kind ∧ slot.check token.text = .error fault ∧ rest = tail) ∨
          (token.kind = slot.kind ∧ slot.check token.text = .ok () ∧
            readSlots later tail = .stuck fault rest) := by
  cases slot with
  | mark kind =>
      simp only [readSlots, Slot.kind, Slot.check]
      split <;> simp_all [eq_comm]
  | number =>
      simp only [readSlots, Slot.kind, Slot.check]
      split
      · cases numberOf token.text <;> simp_all [Reading.map_eq_stuck_iff, Except.map, eq_comm]
      · simp_all [eq_comm]
  | count =>
      simp only [readSlots, Slot.kind, Slot.check]
      split
      · cases countOf token.text <;> simp_all [Reading.map_eq_stuck_iff, Except.map, eq_comm]
      · simp_all [eq_comm]
  | string =>
      simp only [readSlots, Slot.kind, Slot.check]
      split <;> simp_all [Reading.map_eq_stuck_iff, eq_comm]
  | name =>
      simp only [readSlots, Slot.kind, Slot.check]
      split <;> simp_all [Reading.map_eq_stuck_iff, eq_comm]

theorem readSlots_eq_stuck_iff {slots : List Slot} {tokens rest : List Token} {fault : Fault} :
    readSlots slots tokens = .stuck fault rest ↔
      ∃ front, tokens = front ++ rest ∧ Breaks slots front fault rest := by
  induction slots generalizing tokens with
  | nil =>
      simp only [readSlots, reduceCtorEq, false_iff]
      rintro ⟨front, _, breaks⟩
      cases breaks
  | cons slot later ih =>
      cases tokens with
      | nil =>
          have atEnd : readSlots (slot :: later) [] = .stuck (.wanted (.kind slot.kind)) [] := by
            cases slot <;> rfl
          rw [atEnd]
          constructor
          · intro same
            simp only [Reading.stuck.injEq] at same
            rcases same with ⟨rfl, rfl⟩
            exact ⟨[], rfl, .kind (by simp)⟩
          · rintro ⟨front, split, breaks⟩
            rcases List.append_eq_nil_iff.mp split.symm with ⟨rfl, rfl⟩
            cases breaks
            rfl
      | cons token tail =>
          rw [readSlots_cons_eq_stuck_iff, ih]
          constructor
          · rintro (⟨differs, rfl, rfl⟩ | ⟨fits, useless, rfl⟩ | ⟨fits, useful, front, rfl, breaks⟩)
            · exact ⟨[], rfl, .kind (by simpa using differs)⟩
            · exact ⟨[token], rfl, .value fits useless⟩
            · exact ⟨token :: front, rfl, .later fits useful breaks⟩
          · rintro ⟨front, split, breaks⟩
            cases breaks with
            | kind differs =>
                subst split
                exact .inl ⟨differs token (by simp), rfl, rfl⟩
            | value fits useless =>
                simp only [List.cons_append, List.nil_append, List.cons.injEq] at split
                rcases split with ⟨rfl, rfl⟩
                exact .inr (.inl ⟨fits, useless, rfl⟩)
            | later fits useful breaks =>
                simp only [List.cons_append, List.cons.injEq] at split
                rcases split with ⟨rfl, rfl⟩
                exact .inr (.inr ⟨fits, useful, _, rfl, breaks⟩)

end TermScene
