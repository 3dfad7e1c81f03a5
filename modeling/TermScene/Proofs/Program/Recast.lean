import TermScene.Proofs.Program.Reading

/-!
# Recasting programs

Reading looks at the kinds of tokens, at words and at numerals. It passes on what strings say and where
tokens are without looking at it. So a change of these two may be made before reading, in the tokens, or
after it, in the tree: the outcome is the same. Only the quotes that drawn texts lose must be indifferent
to the change.
-/

namespace TermScene

/-- A change of what strings say and of places. -/
structure Recast where
  string : String → String
  place : Option Location → Option Location
  quotes : ∀ text, withoutQuotes (string text) = string (withoutQuotes text)

namespace Recast

variable (change : Recast)

def token (token : Token) : Token where
  kind := token.kind
  text := if token.kind = .string then change.string token.text else token.text
  location := change.place token.location

def operands : (slots : List Slot) → Operands slots → Operands slots
  | [], others => others
  | .mark _ :: later, others => operands later others
  | .number :: later, (number, others) => (number, operands later others)
  | .count :: later, (count, others) => (count, operands later others)
  | .string :: later, (text, others) => (change.string text, operands later others)
  | .name :: later, (text, others) => (text, operands later others)

def drawing : Drawing → Drawing
  | .circle x y radius fill => .circle x y radius (change.string fill)
  | .rect x y width height fill => .rect x y width height (change.string fill)
  | .text text x y size color => .text (change.string text) x y size (change.string color)
  | .line x1 y1 x2 y2 color => .line x1 y1 x2 y2 (change.string color)

mutual

def command : Command → Command
  | .background color place => .background (change.string color) (change.place place)
  | .draw drawing place => .draw (change.drawing drawing) (change.place place)
  | .define name value place => .define name value (change.place place)
  | .rainbow text x y duration place =>
      .rainbow (change.string text) x y duration (change.place place)
  | .wait duration place => .wait duration (change.place place)
  | .frame body place => .frame (commands body) (change.place place)
  | .animate children duration place => .animate (commands children) duration (change.place place)

def commands : List Command → List Command
  | [] => []
  | first :: later => command first :: commands later

end

def program (program : Program) : Program where
  commands := change.commands program.commands
  place := change.place program.place

/-- What was made is changed in some way, and the tokens that are left are recast. -/
def reading {α β : Type} (make : α → β) : Reading α → Reading β
  | .done value rest => .done (make value) (rest.map change.token)
  | .stuck fault rest => .stuck fault (rest.map change.token)

section Tokens

variable (token : Token)

@[simp]
theorem token_kind : (change.token token).kind = token.kind := rfl

theorem token_text_of_ne (notString : token.kind ≠ .string) :
    (change.token token).text = token.text := if_neg notString

theorem token_text_of_string (isString : token.kind = .string) :
    (change.token token).text = change.string token.text := if_pos isString

@[simp]
theorem token_keyword? : (change.token token).keyword? = token.keyword? := by
  unfold Token.keyword?
  rw [token_kind]
  split
  · rename_i isWord
    rw [token_text_of_ne change token (by simp [isWord])]
  · rfl

theorem atBlockEnd_map (tokens : List Token) :
    atBlockEnd (tokens.map change.token) = atBlockEnd tokens := by
  cases tokens <;> rfl

end Tokens

section Readings

variable {α β γ δ : Type} {change}

theorem reading_map {reading : Reading α} {make : α → β} {make' : γ → δ} {alter : α → γ}
    {alter' : β → δ} (commutes : ∀ value, make' (alter value) = alter' (make value)) :
    (change.reading alter reading).map make' = change.reading alter' (reading.map make) := by
  cases reading with
  | done value rest => simp [Recast.reading, commutes]
  | stuck fault rest => rfl

theorem reading_bind {reading : Reading α} {next : α → List Token → Reading β}
    {next' : γ → List Token → Reading δ} {alter : α → γ} {alter' : β → δ}
    (commutes : ∀ value rest, reading = .done value rest →
      next' (alter value) (rest.map change.token) = change.reading alter' (next value rest)) :
    (change.reading alter reading).bind next' = change.reading alter' (reading.bind next) := by
  cases reading with
  | done value rest => simpa [Recast.reading] using commutes value rest rfl
  | stuck fault rest => rfl

end Readings

theorem readSlots_map (slots : List Slot) (tokens : List Token) :
    readSlots slots (tokens.map change.token) =
      change.reading (change.operands slots) (readSlots slots tokens) := by
  induction slots generalizing tokens with
  | nil => cases tokens <;> rfl
  | cons slot later ih =>
      cases tokens with
      | nil => cases slot <;> rfl
      | cons token rest =>
          cases slot with
          | mark kind =>
              by_cases fits : token.kind = kind
              · simp only [List.map_cons, readSlots, token_kind, fits, ↓reduceIte]
                exact ih rest
              · simp only [List.map_cons, readSlots, token_kind, fits, ↓reduceIte]
                rfl
          | number =>
              by_cases fits : token.kind = .number
              · have isText := token_text_of_ne change token (by simp [fits])
                simp only [List.map_cons, readSlots, token_kind, fits, isText, ih, ↓reduceIte]
                cases numberOf token.text with
                | ok number => exact reading_map fun _ => rfl
                | error fault => rfl
              · simp only [List.map_cons, readSlots, token_kind, fits, ↓reduceIte]
                rfl
          | count =>
              by_cases fits : token.kind = .number
              · have isText := token_text_of_ne change token (by simp [fits])
                simp only [List.map_cons, readSlots, token_kind, fits, isText, ih, ↓reduceIte]
                cases countOf token.text with
                | ok count => exact reading_map fun _ => rfl
                | error fault => rfl
              · simp only [List.map_cons, readSlots, token_kind, fits, ↓reduceIte]
                rfl
          | string =>
              by_cases fits : token.kind = .string
              · have isText := token_text_of_string change token fits
                simp only [List.map_cons, readSlots, token_kind, fits, isText, ih, ↓reduceIte]
                exact reading_map fun _ => rfl
              · simp only [List.map_cons, readSlots, token_kind, fits, ↓reduceIte]
                rfl
          | name =>
              by_cases fits : token.kind = .identifier
              · have isText := token_text_of_ne change token (by simp [fits])
                simp only [List.map_cons, readSlots, token_kind, fits, isText, ih, ↓reduceIte]
                exact reading_map fun _ => rfl
              · simp only [List.map_cons, readSlots, token_kind, fits, ↓reduceIte]
                rfl

/-- What a form makes of recast operands is the recast command. -/
def Keeps : Form → Prop
  | .simple slots build => ∀ operands place,
      build (change.operands slots operands) (change.place place) =
        change.command (build operands place)
  | .block tail build => ∀ commands operands place,
      build (change.commands commands) (change.operands tail operands) (change.place place) =
        change.command (build commands operands place)

theorem keeps_form (keyword : Keyword) : change.Keeps keyword.form := by
  cases keyword with
  | text =>
      rintro ⟨content, x, y, size, color, _⟩ place
      simp only [operands, command, drawing, change.quotes]
  | rainbow =>
      rintro ⟨content, x, y, duration, _⟩ place
      simp only [operands, command, change.quotes]
  | animate => intro commands operands place; rfl
  | frame => intro commands operands place; rfl
  | _ => intro operands place; rfl

theorem readForm_map (keyword : Keyword) (place : Option Location) (tokens : List Token)
    (blocks : ∀ inside : List Token, inside.length ≤ tokens.length →
      readBlock (inside.map change.token) = change.reading change.commands (readBlock inside)) :
    readForm keyword.form (change.place place) (tokens.map change.token) =
      change.reading change.command (readForm keyword.form place tokens) := by
  have keeps := change.keeps_form keyword
  cases form : keyword.form with
  | simple slots build =>
      rw [form] at keeps
      simp only [readForm]
      rw [readSlots_map]
      exact reading_map fun operands => keeps operands place
  | block tail build =>
      rw [form] at keeps
      simp only [readForm]
      rw [readSlots_map]
      apply reading_bind
      intro _ inside opened
      rw [blocks inside (readSlots_length opened)]
      apply reading_bind
      intro body after _
      rw [readSlots_map]
      exact reading_map fun operands => keeps body operands place

theorem readBlock_map (tokens : List Token) :
    readBlock (tokens.map change.token) = change.reading change.commands (readBlock tokens) := by
  induction bound : tokens.length using Nat.strongRecOn generalizing tokens with
  | _ size ih =>
      subst bound
      rw [readBlock_eq, readBlock_eq tokens, atBlockEnd_map]
      split
      · rfl
      · have first : readOne (tokens.map change.token) =
            change.reading change.command (readOne tokens) := by
          rcases tokens with _ | ⟨token, rest⟩
          · rw [List.map_nil, readOne_nil]
            rfl
          · cases known : token.keyword? with
            | none =>
                rw [List.map_cons, readOne_of_keyword?_eq_none rest known,
                  readOne_of_keyword?_eq_none _ ((change.token_keyword? token).trans known)]
                rfl
            | some keyword =>
                rw [List.map_cons, readOne_of_keyword?_eq_some rest known,
                  readOne_of_keyword?_eq_some _ ((change.token_keyword? token).trans known)]
                apply readForm_map
                intro inside shorter
                exact ih inside.length (by simp; omega) inside rfl
        rw [first]
        apply reading_bind
        intro command rest read
        rw [ih rest.length (readOne_length read) rest rfl]
        exact reading_map fun _ => rfl

theorem readProgram_map (tokens : List Token) :
    readProgram (tokens.map change.token) = change.reading change.program (readProgram tokens) := by
  cases tokens with
  -- Without a first token there is no place to change.
  | nil => rfl
  | cons token rest =>
      simp only [readProgram]
      rw [readSlots_map]
      apply reading_bind
      intro _ inside opened
      rw [readBlock_map]
      apply reading_bind
      intro body after _
      rw [readSlots_map]
      exact reading_map fun _ => rfl

end Recast

end TermScene
