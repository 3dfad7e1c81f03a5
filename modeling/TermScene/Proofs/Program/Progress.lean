import Mathlib.Order.Monotone.Basic
import TermScene.Proofs.Program.Agenda

/-!
# Progress of reading programs

A parser can be asked to read over and over, from any position of any tokens, well formed or not. Every
call comes to an end. The position never goes back, and goes beyond neither the tokens nor the first of
them that ends the program; and a command that is read takes one token at least. What comes after a token
that ends the program makes no difference to what comes out, only to the notice of ignored tokens.

The invariant of a run is `Parser.Follows`, which each step preserves. That later tokens make no
difference is proved by running two parsers side by side: `Moment.Alike` is preserved by a step of both.
-/

namespace TermScene

namespace Parser

/-- The parser of some tokens that is to read from a position on. -/
def startingAt (tokens : List Token) (source filename : String) (start : ℕ) : Parser :=
  { ofTokens tokens source filename with position := start }

/-- The parser after it was asked to read a number of times. -/
def after (parser : Parser) (calls : ℕ) : Parser := (fun before => before.parse.2)^[calls] parser

/-- The moment after some steps of the call that follows a number of calls. -/
def moment (parser : Parser) (calls steps : ℕ) : Moment :=
  Moment.step^[steps] (parser.after calls).start

/-- Two parsers at one position of tokens that are the same up to a token. -/
structure Agree (front : List Token) (stop : Token) (parser other : Parser) : Prop where
  position : other.position = parser.position
  before : parser.position ≤ front.length
  tokens : front ++ [stop] <+: parser.tokens
  tokens' : front ++ [stop] <+: other.tokens

/-- How a parser gets on, over all its calls. -/
structure Progresses (parser : Parser) : Prop where
  ends (calls : ℕ) :
    ∃ steps ≤ 4 * ((parser.after (calls + 1)).position - (parser.after calls).position) + 4,
      parser.moment calls steps =
        .ended (parser.after calls).parse.1 (parser.after (calls + 1))
  forward (calls : ℕ) : Monotone fun steps => (parser.moment calls steps).parser.position
  onward (calls steps : ℕ) :
    (parser.moment calls steps).parser.position ≤ (parser.after (calls + 1)).position
  within (calls steps : ℕ) :
    (parser.moment calls steps).parser.position ≤ max parser.position parser.tokens.length
  notPast (calls steps index : ℕ) (stop : Token) :
    parser.position ≤ index → parser.tokens[index]? = some stop → stop.kind = .endOfFile →
      (parser.moment calls steps).parser.position ≤ index
  /-- A command that is read passes a token, and otherwise reading fails. -/
  turns (calls steps : ℕ) (reader : Parser) (earlier : List Command) (next : List Command → Agenda) :
    parser.moment calls steps = .reading reader (.commands earlier next) →
      reader.front.kind ≠ .rightBrace → reader.front.kind ≠ .endOfFile →
        ∃ more,
          (∃ command later, reader.position < later.position ∧
            parser.moment calls (more + steps) =
              .reading later (.commands (earlier ++ [command]) next)) ∨
          ∃ failure later, parser.moment calls (more + steps) = .ended (.error failure) later
  /-- What comes out depends on no token after one that ends the program. -/
  blind (front : List Token) (stop : Token) (other : Parser) :
    Agree front stop parser other → stop.kind = .endOfFile → other.finish.kind = .endOfFile →
      ∀ calls, (other.after calls).parse.1.map ReadProgram.program =
        (parser.after calls).parse.1.map ReadProgram.program

section Calls

variable {parser : Parser}

theorem front_eq : parser.front = parser.tokens[parser.position]?.getD parser.finish := by
  rw [front, current, remaining, List.head?_drop]

theorem after_succ (calls : ℕ) : parser.after (calls + 1) = (parser.after calls).parse.2 :=
  Function.iterate_succ_apply' _ calls parser

theorem parse_finish : parser.parse.2.finish = parser.finish := by
  unfold parse
  split <;> rfl

theorem after_finish (calls : ℕ) : (parser.after calls).finish = parser.finish := by
  induction calls with
  | zero => rfl
  | succ calls ih => rw [after_succ, parse_finish, ih]

theorem moment_add (calls steps more : ℕ) :
    parser.moment calls (more + steps) = Moment.step^[more] (parser.moment calls steps) :=
  Function.iterate_add_apply Moment.step more steps _

theorem parser_perform (parser : Parser) (act : Act) :
    (parser.perform act).parser = parser ∨ (parser.perform act).parser = parser.advance := by
  cases act with
  | stay agenda => exact .inl rfl
  | move agenda => exact .inr rfl
  | refuse wanted => exact .inl rfl
  | waste fault => exact .inr rfl
  | finish program => exact .inl rfl

end Calls

end Parser

namespace Moment

theorem parser_step (now : Moment) :
    now.step.parser = now.parser ∨ now.step.parser = now.parser.advance := by
  cases now with
  | ended outcome parser => exact .inl rfl
  | reading parser agenda => exact parser.parser_perform (agenda.act parser.front)

/-- Nothing happens once an outcome is there. -/
theorem iterate_step_ended (outcome : Except ReadFailure ReadProgram) (parser : Parser) (steps : ℕ) :
    step^[steps] (.ended outcome parser) = .ended outcome parser :=
  Function.iterate_fixed rfl steps

end Moment

namespace Parser

/-- What holds of a parser at any later moment. -/
structure Follows (first now : Parser) : Prop where
  tokens : now.tokens = first.tokens
  finish : now.finish = first.finish
  forward : first.position ≤ now.position
  within : now.position ≤ max first.position first.tokens.length
  notPast : ∀ index stop, first.position ≤ index → first.tokens[index]? = some stop →
    stop.kind = .endOfFile → now.position ≤ index

namespace Follows

variable {first now : Parser} {present : Moment}

theorem refl (first : Parser) : Follows first first where
  tokens := rfl
  finish := rfl
  forward := le_rfl
  within := le_max_left _ _
  notPast := fun _ _ isLater _ _ => isLater

theorem advance (follows : Follows first now) (isEnd : first.finish.kind = .endOfFile) :
    Follows first now.advance := by
  unfold Parser.advance
  split
  · exact follows
  · rename_i goesOn
    rw [front_eq, follows.tokens, follows.finish] at goesOn
    have inside : now.position < first.tokens.length := by
      by_contra outside
      rw [List.getElem?_eq_none (not_lt.mp outside)] at goesOn
      exact goesOn isEnd
    refine ⟨follows.tokens, follows.finish, Nat.le_succ_of_le follows.forward,
      inside.trans_le (le_max_right _ _), ?_⟩
    intro index stop isLater isStop stops
    apply Nat.lt_of_le_of_ne (follows.notPast index stop isLater isStop stops)
    rintro rfl
    rw [isStop] at goesOn
    exact goesOn stops

theorem step (follows : Follows first present.parser) (isEnd : first.finish.kind = .endOfFile) :
    Follows first present.step.parser := by
  rcases present.parser_step with same | advanced
  · rwa [same]
  · rw [advanced]
    exact follows.advance isEnd

theorem run (follows : Follows first present.parser) (isEnd : first.finish.kind = .endOfFile)
    (steps : ℕ) : Follows first (Moment.step^[steps] present).parser := by
  induction steps with
  | zero => exact follows
  | succ steps ih =>
      rw [Function.iterate_succ_apply']
      exact ih.step isEnd

theorem parse (follows : Follows first now) (isEnd : first.finish.kind = .endOfFile) :
    Follows first now.parse.2 := by
  have isEnd' : now.finish.kind = .endOfFile := by rwa [follows.finish]
  rcases parse_steps isEnd' with ⟨steps, -, ends⟩
  have started : Follows first now.start.parser := follows
  have ended := started.run isEnd steps
  rwa [ends] at ended

theorem after (isEnd : first.finish.kind = .endOfFile) (calls : ℕ) :
    Follows first (first.after calls) := by
  induction calls with
  | zero => exact refl first
  | succ calls ih =>
      rw [after_succ]
      exact ih.parse isEnd

theorem moment (isEnd : first.finish.kind = .endOfFile) (calls steps : ℕ) :
    Follows first (first.moment calls steps).parser := by
  have started : Follows first (first.after calls).start.parser := after isEnd calls
  exact started.run isEnd steps

end Follows

namespace Agree

variable {front : List Token} {stop : Token} {parser other : Parser}

theorem same_front (agree : Agree front stop parser other) : other.front = parser.front := by
  have inside : parser.position < (front ++ [stop]).length := by
    rw [List.length_append, List.length_singleton]
    exact Nat.lt_succ_of_le agree.before
  have current (which : Parser) (isPrefix : front ++ [stop] <+: which.tokens)
      (isAt : which.position = parser.position) :
      which.front = (front ++ [stop])[parser.position] := by
    rw [front_eq, isAt, List.prefix_iff_getElem?.mp isPrefix _ inside]
    rfl
  rw [current other agree.tokens' agree.position, current parser agree.tokens rfl]

/-- A token that ends the program is passed by neither parser. -/
theorem advance (agree : Agree front stop parser other) (stops : stop.kind = .endOfFile) :
    Agree front stop parser.advance other.advance := by
  unfold Parser.advance
  rw [agree.same_front]
  split
  · exact agree
  · rename_i goesOn
    refine ⟨congrArg (· + 1) agree.position, ?_, agree.tokens, agree.tokens'⟩
    apply Nat.lt_of_le_of_ne agree.before
    intro atStop
    have isStop := List.prefix_iff_getElem?.mp agree.tokens front.length (by simp)
    rw [front_eq, atStop, isStop] at goesOn
    simp [stops] at goesOn

end Agree

end Parser

/-- Moments at which two parsers have the same to do, or the same program or failure came out. -/
inductive Moment.Alike (front : List Token) (stop : Token) : Moment → Moment → Prop where
  | reading {parser other : Parser} (agenda : Agenda) (agree : Parser.Agree front stop parser other) :
      Alike front stop (.reading parser agenda) (.reading other agenda)
  | ended {parser other : Parser} {outcome outcome' : Except ReadFailure ReadProgram}
      (agree : Parser.Agree front stop parser other)
      (same : outcome'.map ReadProgram.program = outcome.map ReadProgram.program) :
      Alike front stop (.ended outcome parser) (.ended outcome' other)

namespace Moment.Alike

variable {front : List Token} {stop : Token} {now now' : Moment} {parser other : Parser}

theorem perform (agree : Parser.Agree front stop parser other) (stops : stop.kind = .endOfFile) (act : Act) :
    Alike front stop (parser.perform act) (other.perform act) := by
  have failure (fault : Fault) :
      other.failure fault other.remaining = parser.failure fault parser.remaining := by
    cases fault with
    | wanted wanted =>
        exact congrArg (fun token => ReadFailure.source (wanted.error token)) agree.same_front
    | notANumeral text => rfl
    | unbounded cause => rfl
  cases act with
  | stay agenda => exact .reading agenda agree
  | move agenda => exact .reading agenda (agree.advance stops)
  | refuse wanted =>
      apply ended agree
      rw [agree.same_front]
  | waste fault =>
      apply ended (agree.advance stops)
      rw [failure fault]
  | finish program => exact ended agree rfl

theorem step (alike : Alike front stop now now') (stops : stop.kind = .endOfFile) :
    Alike front stop now.step now'.step := by
  cases alike with
  | reading agenda agree =>
      simp only [Moment.step, agree.same_front]
      exact perform agree stops _
  | ended agree same => exact .ended agree same

theorem run (alike : Alike front stop now now') (stops : stop.kind = .endOfFile) (steps : ℕ) :
    Alike front stop (Moment.step^[steps] now) (Moment.step^[steps] now') := by
  induction steps with
  | zero => exact alike
  | succ steps ih =>
      rw [Function.iterate_succ_apply', Function.iterate_succ_apply']
      exact ih.step stops

/-- Two parsers that agree are asked to read, and both have come to an end after the steps of the one
and of the other. -/
theorem parse (agree : Parser.Agree front stop parser other) (stops : stop.kind = .endOfFile)
    (isEnd : parser.finish.kind = .endOfFile) (isEnd' : other.finish.kind = .endOfFile) :
    Alike front stop (.ended parser.parse.1 parser.parse.2) (.ended other.parse.1 other.parse.2) := by
  rcases Parser.parse_steps isEnd with ⟨steps, -, ends⟩
  rcases Parser.parse_steps isEnd' with ⟨steps', -, ends'⟩
  have started : Alike front stop parser.start other.start := by
    unfold Parser.start
    rw [agree.same_front]
    exact .reading _ agree
  have both := started.run stops (steps + steps')
  rwa [Function.iterate_add_apply Moment.step steps steps' other.start, ends', iterate_step_ended,
    Nat.add_comm, Function.iterate_add_apply, ends, iterate_step_ended] at both

end Moment.Alike

namespace Parser

variable {front : List Token} {stop : Token} {parser other : Parser}

theorem Agree.parse (agree : Agree front stop parser other) (stops : stop.kind = .endOfFile)
    (isEnd : parser.finish.kind = .endOfFile) (isEnd' : other.finish.kind = .endOfFile) :
    Agree front stop parser.parse.2 other.parse.2 ∧
      other.parse.1.map ReadProgram.program = parser.parse.1.map ReadProgram.program := by
  cases Moment.Alike.parse agree stops isEnd isEnd' with
  | ended agree same => exact ⟨agree, same⟩

theorem Agree.after (agree : Agree front stop parser other) (stops : stop.kind = .endOfFile)
    (isEnd : parser.finish.kind = .endOfFile) (isEnd' : other.finish.kind = .endOfFile) (calls : ℕ) :
    Agree front stop (parser.after calls) (other.after calls) := by
  induction calls with
  | zero => exact agree
  | succ calls ih =>
      rw [after_succ, after_succ]
      exact (ih.parse stops (by rwa [after_finish]) (by rwa [after_finish])).1

theorem moment_ends (isEnd : parser.finish.kind = .endOfFile) (calls : ℕ) :
    ∃ steps ≤ 4 * ((parser.after (calls + 1)).position - (parser.after calls).position) + 4,
      parser.moment calls steps = .ended (parser.after calls).parse.1 (parser.after (calls + 1)) := by
  rw [after_succ]
  apply parse_steps
  rwa [after_finish]

theorem moment_position_le (isEnd : parser.finish.kind = .endOfFile) (calls steps more : ℕ) :
    (parser.moment calls steps).parser.position ≤
      (parser.moment calls (more + steps)).parser.position := by
  have follows := Follows.moment isEnd calls steps
  have isEnd' : (parser.moment calls steps).parser.finish.kind = .endOfFile := by
    rwa [follows.finish]
  have onwards := (Follows.refl (parser.moment calls steps).parser).run isEnd' more
  rw [moment_add]
  exact onwards.forward

/-- A command in front of which a parser stands is read and passed, or reading fails. -/
theorem exists_turn (earlier : List Command) (next : List Command → Agenda)
    (isEnd : parser.finish.kind = .endOfFile) (notBrace : parser.front.kind ≠ .rightBrace)
    (notEnd : parser.front.kind ≠ .endOfFile) :
    ∃ more,
      (∃ command later, parser.position < later.position ∧
        Moment.step^[more] (.reading parser (.commands earlier next)) =
          .reading later (.commands (earlier ++ [command]) next)) ∨
      ∃ failure later,
        Moment.step^[more] (.reading parser (.commands earlier next)) = .ended (.error failure) later := by
  have performs := performs_command earlier next isEnd (not_or.mpr ⟨notBrace, notEnd⟩)
  cases read : readOne parser.remaining with
  | done command rest =>
      rw [read] at performs
      rcases performs with ⟨-, more, -, leads⟩
      have shorter := readOne_length read
      have moved : parser.position < (parser.leaving rest).position := by
        change parser.position < parser.position + (parser.remaining.length - rest.length)
        omega
      exact ⟨more, .inl ⟨command, parser.leaving rest, moved, leads⟩⟩
  | stuck fault rest =>
      rw [read] at performs
      rcases performs with ⟨-, more, -, leads⟩
      exact ⟨more, .inr ⟨_, _, leads⟩⟩

/-- Whatever the tokens and the position are, reading gets on. -/
theorem parse_progresses (tokens : List Token) (source filename : String) (start : ℕ) :
    Progresses (startingAt tokens source filename start) := by
  generalize starts : startingAt tokens source filename start = parser
  have isEnd : parser.finish.kind = .endOfFile := by
    rw [← starts]
    rfl
  have follows := @Follows.moment parser isEnd
  refine ⟨moment_ends isEnd, ?forward, ?onward, fun calls steps => (follows calls steps).within,
    fun calls steps => (follows calls steps).notPast, ?turns, ?blind⟩
  case forward =>
    intro calls
    apply monotone_nat_of_le_succ
    intro steps
    rw [Nat.add_comm]
    exact moment_position_le isEnd calls steps 1
  case onward =>
    intro calls steps
    rcases moment_ends isEnd calls with ⟨count, -, ended⟩
    have later := moment_position_le isEnd calls steps count
    rwa [Nat.add_comm, moment_add, ended, Moment.iterate_step_ended] at later
  case turns =>
    intro calls steps reader earlier next isAt notBrace notEnd
    have isEnd' : reader.finish.kind = .endOfFile := by
      have finish := (follows calls steps).finish
      rw [isAt] at finish
      exact finish ▸ isEnd
    simp only [moment_add, isAt]
    exact exists_turn earlier next isEnd' notBrace notEnd
  case blind =>
    intro front stop other agree stops isEnd' calls
    have both := agree.after stops isEnd isEnd' calls
    exact (both.parse stops (by rwa [after_finish]) (by rwa [after_finish])).2

end Parser

end TermScene
