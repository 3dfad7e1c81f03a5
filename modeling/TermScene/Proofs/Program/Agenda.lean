import Mathlib.Logic.Function.Iterate
import TermScene.Proofs.Program.Completion

/-!
# Reading programs step by step

The reading of a program is cut into steps here. An agenda is what is still to be read, and at each step
it decides from the current token alone: to go on in front of the token or behind it, to give up, or that
the program is read. Nothing in a step bounds how often a block of commands goes round, and the parser
moves past a token only if it is not one that ends the program.

The main statement is that these steps come to an end, and end as `Parser.parse` does: there are at most
four for each token that is read, and four more. The invariant that carries the proof is `Performs`, which
says of a part of the agenda what `Reading` says of the function that reads this part.
-/

namespace TermScene

/-- What is still to be read of a program, and what is made of it. -/
inductive Agenda where
  | finished (program : Program)
  | fill (slots : List Slot) (next : Operands slots → Agenda)
  | commands (before : List Command) (next : List Command → Agenda)

/-- What a slot makes of the text of a token, in front of the operands of later slots. -/
def Slot.take (slot : Slot) (later : List Slot) (text : String) :
    Except Fault (Operands later → Operands (slot :: later)) :=
  match slot with
  | .mark _ => .ok fun operands => operands
  | .number => (numberOf text).map fun number operands => (number, operands)
  | .count => (countOf text).map fun count operands => (count, operands)
  | .string => .ok fun operands => (text, operands)
  | .name => .ok fun operands => (text, operands)

/-- A block of commands between slots. -/
def Agenda.block (opening tail : List Slot) (next : List Command → Operands tail → Agenda) : Agenda :=
  .fill opening fun _ => .commands [] fun commands => .fill tail (next commands)

/-- What is to be read of a command behind its first word. -/
def Form.agenda (form : Form) (place : Option Location) (next : Command → Agenda) : Agenda :=
  match form with
  | .simple slots build => .fill slots fun operands => next (build operands place)
  | .block tail build =>
      .block [.mark .leftBrace] tail fun commands operands => next (build commands operands place)

/-- What is done at a token: to go on in front of it or behind it, to refuse it, to take it in vain, or to
finish. -/
inductive Act where
  | stay (agenda : Agenda)
  | move (agenda : Agenda)
  | refuse (wanted : Wanted)
  | waste (fault : Fault)
  | finish (program : Program)

namespace Agenda

def ofProgram (place : Option Location) : Agenda :=
  .block [.word, .mark .leftBrace] [.mark .rightBrace] fun commands _ => .finished ⟨commands, place⟩

def act (agenda : Agenda) (token : Token) : Act :=
  match agenda with
  | .finished program => .finish program
  | .fill [] next => .stay (next ())
  | .fill (slot :: later) next =>
      if token.kind = slot.kind then
        match slot.take later token.text with
        | .ok give => .move (.fill later fun operands => next (give operands))
        | .error fault => .waste fault
      else .refuse (.kind slot.kind)
  | .commands before next =>
      if token.kind = .rightBrace ∨ token.kind = .endOfFile then .stay (next before)
      else
        match token.keyword? with
        | none => .refuse .command
        | some keyword =>
            .move (keyword.form.agenda token.location fun command =>
              .commands (before ++ [command]) next)

end Agenda

/-- A parser at work on an agenda, or what came out and the parser after it. -/
inductive Moment where
  | reading (parser : Parser) (agenda : Agenda)
  | ended (outcome : Except ReadFailure ReadProgram) (parser : Parser)

namespace Parser

/-- The current token: the one at the position, or the end of the program. -/
def front (parser : Parser) : Token := parser.current parser.remaining

/-- Moves past the current token, unless the program ends there. -/
def advance (parser : Parser) : Parser :=
  if parser.front.kind = .endOfFile then parser
  else { parser with position := parser.position + 1 }

def perform (parser : Parser) (act : Act) : Moment :=
  match act with
  | .stay agenda => .reading parser agenda
  | .move agenda => .reading parser.advance agenda
  | .refuse wanted => .ended (.error (.source (wanted.error parser.front))) parser
  | .waste fault => .ended (.error (parser.failure fault parser.remaining)) parser.advance
  | .finish program =>
      let ignored := if parser.front.kind = .endOfFile then 0 else parser.remaining.length
      .ended (.ok ⟨program, ignored⟩) parser

/-- The moment at which a parser is asked to read. -/
def start (parser : Parser) : Moment := .reading parser (.ofProgram parser.front.location)

end Parser

namespace Moment

def parser : Moment → Parser
  | .reading parser _ => parser
  | .ended _ parser => parser

def step : Moment → Moment
  | .reading parser agenda => parser.perform (agenda.act parser.front)
  | .ended outcome parser => .ended outcome parser

end Moment

namespace Parser

variable {parser : Parser} {token : Token} {rest rest' : List Token}

theorem front_of_cons (left : parser.remaining = token :: rest) : parser.front = token := by
  simp [front, current, left]

theorem front_of_nil (nothing : parser.remaining = []) : parser.front = parser.finish := by
  simp [front, current, nothing]

theorem front_kind_of_nil (isEnd : parser.finish.kind = .endOfFile) (nothing : parser.remaining = []) :
    parser.front.kind = .endOfFile := by
  rw [front_of_nil nothing, isEnd]

theorem isSuffix_of_cons (left : parser.remaining = token :: rest) : rest <:+ parser.remaining := by
  rw [left]
  exact List.suffix_cons token rest

@[simp]
theorem leaving_remaining : parser.leaving parser.remaining = parser := by
  simp [leaving]

theorem remaining_leaving (isRest : rest <:+ parser.remaining) :
    (parser.leaving rest).remaining = rest := by
  rcases isRest with ⟨passed, split⟩
  have count : parser.remaining.length - rest.length = passed.length := by
    rw [← split, List.length_append, Nat.add_sub_cancel]
  have left : (parser.leaving rest).remaining = parser.remaining.drop passed.length := by
    rw [remaining, remaining, leaving, count, List.drop_drop]
  rw [left, ← split, List.drop_left]

theorem leaving_leaving (isRest : rest <:+ parser.remaining) (isRest' : rest' <:+ rest) :
    (parser.leaving rest).leaving rest' = parser.leaving rest' := by
  have shorter := isRest.length_le
  have shorter' := isRest'.length_le
  have position : parser.position + (parser.remaining.length - rest.length) +
      (rest.length - rest'.length) =
        parser.position + (parser.remaining.length - rest'.length) := by
    omega
  rw [leaving, remaining_leaving isRest]
  simp only [leaving, position]

/-- Moving past a token that does not end the program leaves the tokens behind it. -/
theorem advance_of_cons (left : parser.remaining = token :: rest) (goesOn : token.kind ≠ .endOfFile) :
    parser.advance = parser.leaving rest := by
  rw [advance, front_of_cons left, if_neg goesOn, leaving, left, List.length_cons,
    Nat.add_sub_cancel_left]

end Parser

/-- Steps from an agenda to another moment that leave some of the tokens: at most four for each token that
is passed, and a few more. -/
structure Leads (extra : ℕ) (parser : Parser) (rest : List Token) (agenda : Agenda) (goal : Moment) :
    Prop where
  isRest : rest <:+ parser.remaining
  steps : ∃ count ≤ 4 * (parser.remaining.length - rest.length) + extra,
    Moment.step^[count] (.reading parser agenda) = goal

namespace Leads

variable {extra extra' : ℕ} {parser : Parser} {rest rest' : List Token} {agenda agenda' : Agenda}
  {goal : Moment}

theorem refl (parser : Parser) (agenda : Agenda) :
    Leads 0 parser parser.remaining agenda (.reading parser agenda) :=
  ⟨List.suffix_rfl, 0, Nat.zero_le _, rfl⟩

theorem mono (more : extra ≤ extra') (leads : Leads extra parser rest agenda goal) :
    Leads extra' parser rest agenda goal := by
  rcases leads with ⟨isRest, count, bound, leads⟩
  exact ⟨isRest, count, by omega, leads⟩

theorem trans (first : Leads extra parser rest agenda (.reading (parser.leaving rest) agenda'))
    (second : Leads extra' (parser.leaving rest) rest' agenda' goal) :
    Leads (extra + extra') parser rest' agenda goal := by
  have isRest' : rest' <:+ rest := by
    simpa only [Parser.remaining_leaving first.isRest] using second.isRest
  rcases first with ⟨isRest, count, bound, leads⟩
  rcases second with ⟨-, count', bound', leads'⟩
  rw [Parser.remaining_leaving isRest] at bound'
  have shorter := isRest.length_le
  have shorter' := isRest'.length_le
  refine ⟨isRest'.trans isRest, count' + count, by omega, ?_⟩
  rw [Function.iterate_add_apply, leads, leads']

theorem stay (stays : agenda.act parser.front = .stay agenda')
    (leads : Leads extra parser rest agenda' goal) : Leads (extra + 1) parser rest agenda goal := by
  rcases leads with ⟨isRest, count, bound, leads⟩
  refine ⟨isRest, count + 1, by omega, ?_⟩
  rw [Function.iterate_succ_apply, Moment.step, stays]
  exact leads

end Leads

/-- The tokens that are left behind what is read, or where reading is stuck. -/
def Reading.rest {α : Type} : Reading α → List Token
  | .done _ rest => rest
  | .stuck _ rest => rest

@[simp]
theorem Reading.rest_done {α : Type} (value : α) (rest : List Token) :
    (Reading.done value rest).rest = rest := rfl

@[simp]
theorem Reading.rest_stuck {α : Type} (fault : Fault) (rest : List Token) :
    (Reading.stuck fault rest : Reading α).rest = rest := rfl

/-- The moment to which a reading leads, given what comes next with the value that is read. -/
def Parser.goal {α : Type} (parser : Parser) (next : α → Agenda) (reading : Reading α) : Moment :=
  match reading with
  | .done value rest => .reading (parser.leaving rest) (next value)
  | .stuck fault rest => .ended (.error (parser.failure fault rest)) (parser.leaving rest)

theorem Parser.goal_leaving {α : Type} {parser : Parser} {rest : List Token} {next : α → Agenda}
    {reading : Reading α} (isRest : rest <:+ parser.remaining) (isRest' : reading.rest <:+ rest) :
    (parser.leaving rest).goal next reading = parser.goal next reading := by
  cases reading with
  | done value rest' =>
      rw [Reading.rest_done] at isRest'
      simp only [goal, leaving_leaving isRest isRest']
  | stuck fault rest' =>
      rw [Reading.rest_stuck] at isRest'
      simp only [goal, leaving_leaving isRest isRest']
      rfl

/-- The steps of an agenda lead to where a reading leads. -/
def Performs {α : Type} (extra : ℕ) (parser : Parser) (agenda : Agenda) (next : α → Agenda)
    (reading : Reading α) : Prop :=
  Leads extra parser reading.rest agenda (parser.goal next reading)

namespace Performs

variable {α β : Type} {extra extra' : ℕ} {parser : Parser} {token : Token} {rest : List Token}
  {agenda agenda' : Agenda} {next : α → Agenda} {reading : Reading α}

theorem done {value : α} (isNext : next value = agenda) :
    Performs 0 parser agenda next (.done value parser.remaining) := by
  simp only [Performs, Parser.goal, Parser.leaving_remaining, isNext]
  exact Leads.refl parser agenda

theorem mono (more : extra ≤ extra') (performs : Performs extra parser agenda next reading) :
    Performs extra' parser agenda next reading :=
  Leads.mono more performs

theorem stay (stays : agenda.act parser.front = .stay agenda')
    (performs : Performs extra parser agenda' next reading) :
    Performs (extra + 1) parser agenda next reading :=
  Leads.stay stays performs

theorem refuse {wanted : Wanted} (refuses : agenda.act parser.front = .refuse wanted) :
    Performs 1 parser agenda next (.stuck (.wanted wanted) parser.remaining) := by
  refine ⟨List.suffix_rfl, 1, by omega, ?_⟩
  rw [Function.iterate_one, Moment.step, refuses, Parser.goal, Parser.leaving_remaining]
  rfl

theorem move (left : parser.remaining = token :: rest) (goesOn : token.kind ≠ .endOfFile)
    (moves : agenda.act token = .move agenda')
    (performs : Performs (extra + 3) (parser.leaving rest) agenda' next reading) :
    Performs extra parser agenda next reading := by
  have isRest := Parser.isSuffix_of_cons left
  rcases performs with ⟨isRest', count, bound, leads⟩
  rw [Parser.remaining_leaving isRest] at isRest' bound
  have shorter := isRest'.length_le
  refine ⟨isRest'.trans isRest, count + 1, ?_, ?_⟩
  · rw [left, List.length_cons]
    omega
  · have steps : Moment.step (.reading parser agenda) = .reading (parser.leaving rest) agenda' := by
      rw [Moment.step, Parser.front_of_cons left, moves, Parser.perform,
        Parser.advance_of_cons left goesOn]
    rw [Function.iterate_succ_apply, steps, leads, Parser.goal_leaving isRest isRest']

theorem waste {fault : Fault} (left : parser.remaining = token :: rest)
    (goesOn : token.kind ≠ .endOfFile) (wastes : agenda.act token = .waste fault)
    (isVain : ∀ wanted, fault ≠ .wanted wanted) :
    Performs 1 parser agenda next (.stuck fault rest) := by
  have failure : parser.failure fault parser.remaining = parser.failure fault rest := by
    cases fault with
    | wanted wanted => exact absurd rfl (isVain wanted)
    | notANumeral text => rfl
    | unbounded cause => rfl
  refine ⟨Parser.isSuffix_of_cons left, 1, by omega, ?_⟩
  rw [Function.iterate_one, Moment.step, Parser.front_of_cons left, wastes, Parser.perform,
    Parser.advance_of_cons left goesOn, failure]
  rfl

theorem map {make : β → α} {reading : Reading β}
    (performs : Performs extra parser agenda (fun value => next (make value)) reading) :
    Performs extra parser agenda next (reading.map make) := by
  cases reading with
  | done value rest => exact performs
  | stuck fault rest => exact performs

/-- One part after another: what is read first decides about what is read then. -/
theorem bind {next' : β → Agenda} {following : α → List Token → Reading β}
    (first : Performs extra parser agenda next reading)
    (second : ∀ value rest, reading = .done value rest → rest <:+ parser.remaining →
      Performs extra' (parser.leaving rest) (next value) next' (following value rest)) :
    Performs (extra + extra') parser agenda next' (reading.bind following) := by
  cases reading with
  | done value rest =>
      have isRest : rest <:+ parser.remaining := first.isRest
      have performs := second value rest rfl isRest
      have isRest' : (following value rest).rest <:+ rest := by
        simpa only [Parser.remaining_leaving isRest] using performs.isRest
      unfold Performs at performs
      rw [Parser.goal_leaving isRest isRest'] at performs
      exact Leads.trans first performs
  | stuck fault rest =>
      exact Leads.mono (Nat.le_add_right extra extra') first

end Performs

section Slots

variable (slot : Slot) (later : List Slot)

theorem readSlots_nil : readSlots (slot :: later) [] = .stuck (.wanted (.kind slot.kind)) [] := by
  cases slot <;> rfl

/-- One token is taken by one slot. -/
theorem readSlots_cons (token : Token) (tail : List Token) :
    readSlots (slot :: later) (token :: tail) =
      if token.kind = slot.kind then
        match slot.take later token.text with
        | .ok give => (readSlots later tail).map give
        | .error fault => .stuck fault tail
      else .stuck (.wanted (.kind slot.kind)) (token :: tail) := by
  cases slot with
  | mark kind =>
      have same : (readSlots later tail).map (fun operands => operands) = readSlots later tail := by
        cases readSlots later tail <;> rfl
      simp only [readSlots, Slot.kind, Slot.take, same]
  | number =>
      simp only [readSlots, Slot.kind, Slot.take]
      cases numberOf token.text <;> rfl
  | count =>
      simp only [readSlots, Slot.kind, Slot.take]
      cases countOf token.text <;> rfl
  | string => rfl
  | name => rfl

theorem Slot.take_ne_wanted (text : String) (wanted : Wanted) :
    slot.take later text ≠ .error (.wanted wanted) := by
  have useful : slot.check text ≠ .error (.wanted wanted) := slot.check_ne_wanted text
  intro fails
  apply useful
  cases slot with
  | number =>
      simp only [take] at fails
      cases read : numberOf text <;> simp_all [check, Except.map]
  | count =>
      simp only [take] at fails
      cases read : countOf text <;> simp_all [check, Except.map]
  | _ => simp [take] at fails

end Slots

section Parts

variable {parser : Parser}

theorem performs_fill {slots : List Slot} (goOn : ∀ slot ∈ slots, slot.kind ≠ .endOfFile)
    (isEnd : parser.finish.kind = .endOfFile) (next : Operands slots → Agenda) :
    Performs 1 parser (.fill slots next) next (readSlots slots parser.remaining) := by
  induction slots generalizing parser with
  | nil => exact .stay rfl (.done rfl)
  | cons slot later ih =>
      rcases List.forall_mem_cons.mp goOn with ⟨goesOn, laterGoOn⟩
      cases left : parser.remaining with
      | nil =>
          rw [readSlots_nil, ← left]
          apply Performs.refuse
          rw [Agenda.act, Parser.front_kind_of_nil isEnd left, if_neg (Ne.symm goesOn)]
      | cons token tail =>
          rw [readSlots_cons]
          by_cases fits : token.kind = slot.kind
          · rw [if_pos fits]
            rw [← fits] at goesOn
            cases taken : slot.take later token.text with
            | error fault =>
                apply Performs.waste left goesOn
                · simp only [Agenda.act, if_pos fits, taken]
                · rintro wanted rfl
                  exact slot.take_ne_wanted later token.text wanted taken
            | ok give =>
                have isRest := Parser.isSuffix_of_cons left
                have moves : (Agenda.fill (slot :: later) next).act token =
                    .move (.fill later fun operands => next (give operands)) := by
                  simp only [Agenda.act, if_pos fits, taken]
                have others := @ih (parser.leaving tail) laterGoOn isEnd
                  fun operands => next (give operands)
                rw [Parser.remaining_leaving isRest] at others
                exact .move left goesOn moves (others.map.mono (by omega))
          · rw [if_neg fits, ← left]
            apply Performs.refuse
            rw [Agenda.act, Parser.front_of_cons left, if_neg fits]

/-- A block between slots, if what is behind the opening slots is performed as a block. -/
theorem performs_between {α : Type} {opening tail : List Slot} {next : α → Agenda}
    (make : List Command → Operands tail → α) (isEnd : parser.finish.kind = .endOfFile)
    (opens : ∀ slot ∈ opening, slot.kind ≠ .endOfFile) (closes : ∀ slot ∈ tail, slot.kind ≠ .endOfFile)
    (blocks : ∀ inside next, inside <:+ parser.remaining →
      Performs 1 (parser.leaving inside) (.commands [] next) next (readBlock inside)) :
    Performs 3 parser (.block opening tail fun commands operands => next (make commands operands)) next
      ((readSlots opening parser.remaining).bind fun _ inside =>
        (readBlock inside).bind fun commands after => (readSlots tail after).map (make commands)) := by
  have opened := performs_fill opens isEnd fun _ =>
    .commands [] fun commands => .fill tail fun operands => next (make commands operands)
  have closed (inside : List Token) (commands : List Command) (after : List Token)
      (isAfter : after <:+ (parser.leaving inside).remaining) :
      Performs 1 ((parser.leaving inside).leaving after)
        (.fill tail fun operands => next (make commands operands)) next
        ((readSlots tail after).map (make commands)) := by
    have filled := @performs_fill ((parser.leaving inside).leaving after) tail closes isEnd
      fun operands => next (make commands operands)
    rw [Parser.remaining_leaving isAfter] at filled
    exact filled.map
  exact opened.bind fun _ inside _ isInside =>
    (blocks inside _ isInside).bind fun commands after _ isAfter =>
      closed inside commands after isAfter

/-- A command of a form behind its first word. -/
theorem performs_form (keyword : Keyword) (place : Option Location) (next : Command → Agenda)
    (isEnd : parser.finish.kind = .endOfFile)
    (blocks : ∀ inside next, inside <:+ parser.remaining →
      Performs 1 (parser.leaving inside) (.commands [] next) next (readBlock inside)) :
    Performs 3 parser (keyword.form.agenda place next) next
      (readForm keyword.form place parser.remaining) := by
  have goOn : ∀ slot ∈ keyword.form.slots, slot.kind ≠ .endOfFile := by
    intro slot inside
    exact (keyword.slots_emitted slot inside).2
  cases form : keyword.form with
  | simple slots build =>
      rw [form] at goOn
      have filled := performs_fill goOn isEnd fun operands => next (build operands place)
      exact filled.map.mono (by omega)
  | block tail build =>
      rw [form] at goOn
      exact performs_between (fun commands operands => build commands operands place) isEnd
        (by simp [Slot.kind]) goOn blocks

/-- A turn of a block: the first word of a command is passed, and the command behind it. -/
theorem performs_turn {token : Token} {rest : List Token} {keyword : Keyword}
    (before : List Command) (next : List Command → Agenda) (isEnd : parser.finish.kind = .endOfFile)
    (left : parser.remaining = token :: rest) (known : token.keyword? = some keyword)
    (blocks : ∀ inside next, inside <:+ rest →
      Performs 1 (parser.leaving inside) (.commands [] next) next (readBlock inside)) :
    Performs 0 parser (.commands before next) (fun command => .commands (before ++ [command]) next)
      (readForm keyword.form token.location rest) := by
  have isWord := (Token.keyword?_eq_some_iff.mp known).1
  have isRest := Parser.isSuffix_of_cons left
  have moves : (Agenda.commands before next).act token =
      .move (keyword.form.agenda token.location fun command =>
        .commands (before ++ [command]) next) := by
    simp [Agenda.act, isWord, known]
  have command : Performs 3 (parser.leaving rest)
      (keyword.form.agenda token.location fun command => .commands (before ++ [command]) next)
      (fun command => .commands (before ++ [command]) next)
      (readForm keyword.form token.location (parser.leaving rest).remaining) := by
    apply @performs_form (parser.leaving rest) keyword token.location _ isEnd
    intro inside next isInside
    rw [Parser.remaining_leaving isRest] at isInside
    rw [Parser.leaving_leaving isRest isInside]
    exact blocks inside next isInside
  rw [Parser.remaining_leaving isRest] at command
  exact .move left (by simp [isWord]) moves command

theorem atBlockEnd_remaining (isEnd : parser.finish.kind = .endOfFile) :
    atBlockEnd parser.remaining = true ↔
      parser.front.kind = .rightBrace ∨ parser.front.kind = .endOfFile := by
  cases left : parser.remaining with
  | nil => simp [atBlockEnd, Parser.front_kind_of_nil isEnd left]
  | cons token rest => simp [atBlockEnd, Parser.front_of_cons left]

/-- A token that is no first word of a command. -/
theorem performs_stray {α : Type} {token : Token} {rest : List Token} {later : α → Agenda}
    (before : List Command) (next : List Command → Agenda) (left : parser.remaining = token :: rest)
    (outside : ¬(token.kind = .rightBrace ∨ token.kind = .endOfFile)) (unknown : token.keyword? = none) :
    Performs 1 parser (.commands before next) later
      (.stuck (.wanted .command) parser.remaining) := by
  apply Performs.refuse
  rw [Parser.front_of_cons left, Agenda.act, if_neg outside, unknown]

/-- A turn of a block and the turns after it, if what has fewer tokens is performed as a block. -/
theorem performs_turns {token : Token} {rest : List Token} {keyword : Keyword}
    (before : List Command) (next : List Command → Agenda) (isEnd : parser.finish.kind = .endOfFile)
    (left : parser.remaining = token :: rest) (known : token.keyword? = some keyword)
    (smaller : ∀ inside before next, inside <:+ parser.remaining →
      inside.length < parser.remaining.length →
        Performs 1 (parser.leaving inside) (.commands before next)
          (fun commands => next (before ++ commands)) (readBlock inside)) :
    Performs 1 parser (.commands before next) (fun commands => next (before ++ commands))
      ((readOne (token :: rest)).bind fun command after =>
        (readBlock after).map (command :: ·)) := by
  have read := readOne_of_keyword?_eq_some rest known
  have turn := performs_turn before next isEnd left known fun inside next isInside =>
    smaller inside [] next (isInside.trans (Parser.isSuffix_of_cons left))
      (by rw [left]; exact Nat.lt_succ_of_le isInside.length_le)
  have later (command : Command) (after : List Token)
      (isDone : readForm keyword.form token.location rest = .done command after)
      (isAfter : after <:+ parser.remaining) :
      Performs 1 (parser.leaving after) (.commands (before ++ [command]) next)
        (fun commands => next (before ++ commands)) ((readBlock after).map (command :: ·)) := by
    have shorter := readOne_length (read.trans isDone)
    rw [← left] at shorter
    have block := smaller after (before ++ [command]) next isAfter shorter
    simp only [List.append_assoc, List.singleton_append] at block
    apply Performs.map
    exact block
  rw [read]
  exact turn.bind later

theorem performs_block (before : List Command) (next : List Command → Agenda)
    (isEnd : parser.finish.kind = .endOfFile) :
    Performs 1 parser (.commands before next) (fun commands => next (before ++ commands))
      (readBlock parser.remaining) := by
  -- Every turn passes a word at least, so that both the blocks inside and the later turns are of fewer
  -- tokens.
  induction size : parser.remaining.length using Nat.strongRecOn generalizing parser before next with
  | _ size ih =>
      subst size
      rw [readBlock_eq]
      split
      · rename_i atEnd
        have stays : (Agenda.commands before next).act parser.front = .stay (next before) := by
          rw [Agenda.act, if_pos ((atBlockEnd_remaining isEnd).mp atEnd)]
        exact .stay stays (.done (congrArg next (List.append_nil before)))
      · rename_i outside
        cases left : parser.remaining with
        | nil => simp [left, atBlockEnd] at outside
        | cons token rest =>
            cases known : token.keyword? with
            | none =>
                rw [readOne_of_keyword?_eq_none rest known, Reading.bind_stuck, ← left]
                rw [atBlockEnd_remaining isEnd, Parser.front_of_cons left] at outside
                exact performs_stray before next left outside known
            | some keyword =>
                apply performs_turns before next isEnd left known
                intro inside before next isInside shorter
                have isLeft := Parser.remaining_leaving isInside
                have block := @ih inside.length shorter (parser.leaving inside) before next isEnd
                  (congrArg List.length isLeft)
                rwa [isLeft] at block

/-- A block inside what is left, from its first command on. -/
theorem performs_inside {inside : List Token} (next : List Command → Agenda)
    (isEnd : parser.finish.kind = .endOfFile) (isInside : inside <:+ parser.remaining) :
    Performs 1 (parser.leaving inside) (.commands [] next) next (readBlock inside) := by
  have block := @performs_block (parser.leaving inside) [] next isEnd
  rwa [Parser.remaining_leaving isInside] at block

theorem performs_program (isEnd : parser.finish.kind = .endOfFile) :
    Performs 3 parser (.ofProgram parser.front.location) .finished (readProgram parser.remaining) := by
  cases left : parser.remaining with
  | nil =>
      have stuck : Performs 1 parser (.ofProgram parser.front.location) .finished
          (.stuck (.wanted (.kind Slot.word.kind)) parser.remaining) := by
        apply Performs.refuse
        simp [Agenda.ofProgram, Agenda.block, Agenda.act, Slot.kind,
          Parser.front_kind_of_nil isEnd left]
      rw [left] at stuck
      exact stuck.mono (by omega)
  | cons token rest =>
      have program := @performs_between parser Program [.word, .mark .leftBrace] [.mark .rightBrace]
        .finished (fun commands _ => ⟨commands, token.location⟩) isEnd (by simp [Slot.kind])
        (by simp [Slot.kind]) fun _ next isInside => performs_inside next isEnd isInside
      rw [left] at program
      rw [Parser.front_of_cons left]
      exact program

/-- A command is performed as it is read, where the block does not end. -/
theorem performs_command (before : List Command) (next : List Command → Agenda)
    (isEnd : parser.finish.kind = .endOfFile)
    (outside : ¬(parser.front.kind = .rightBrace ∨ parser.front.kind = .endOfFile)) :
    Performs 1 parser (.commands before next) (fun command => .commands (before ++ [command]) next)
      (readOne parser.remaining) := by
  cases left : parser.remaining with
  | nil => exact absurd (Or.inr (Parser.front_kind_of_nil isEnd left)) outside
  | cons token rest =>
      rw [Parser.front_of_cons left] at outside
      cases known : token.keyword? with
      | none =>
          rw [readOne_of_keyword?_eq_none rest known, ← left]
          exact performs_stray before next left outside known
      | some keyword =>
          have isRest := Parser.isSuffix_of_cons left
          have turn := performs_turn before next isEnd left known fun _ next isInside =>
            performs_inside next isEnd (isInside.trans isRest)
          rw [readOne_of_keyword?_eq_some rest known]
          exact turn.mono (Nat.zero_le 1)

/-- A parser that is asked to read comes to an end, and ends as the reading of the program says. The
steps are at most four for each token that is passed, and four more. -/
theorem Parser.parse_steps (isEnd : parser.finish.kind = .endOfFile) :
    ∃ count ≤ 4 * (parser.parse.2.position - parser.position) + 4,
      Moment.step^[count] parser.start = .ended parser.parse.1 parser.parse.2 := by
  have performs := performs_program isEnd
  have passed (rest : List Token) :
      (parser.leaving rest).position - parser.position = parser.remaining.length - rest.length :=
    Nat.add_sub_cancel_left _ _
  unfold parse
  cases read : readProgram parser.remaining with
  | done program rest =>
      rw [read] at performs
      rcases performs with ⟨isRest, count, bound, leads⟩
      rw [Reading.rest_done] at isRest bound
      refine ⟨count + 1, by rw [passed]; omega, ?_⟩
      rw [Function.iterate_succ_apply', start, leads, goal, Moment.step, Agenda.act, perform,
        remaining_leaving isRest, front, remaining_leaving isRest]
      rfl
  | stuck fault rest =>
      rw [read] at performs
      rcases performs with ⟨isRest, count, bound, leads⟩
      rw [Reading.rest_stuck] at bound
      exact ⟨count, by rw [passed]; omega, leads⟩

end Parts

end TermScene
