import TermScene.Notice
import TermScene.Program.Form
import TermScene.SourceError
import TermScene.Text.Lines
import TermScene.Token.Lexer

/-!
# Reading programs

A program is read from its tokens from left to right, looking one token ahead. A reading either makes
something and leaves the tokens after it, or is stuck: at the token that cannot stand where it stands,
or just after a numeral that has no value. A token of the kind `endOfFile` ends the program wherever it
stands.

A `Parser` keeps the tokens and how many of them were read, so that reading can be taken up again where
it stopped.
-/

namespace TermScene

/-- What is wanted at a place of a program. -/
inductive Wanted where
  | kind (kind : TokenKind)
  | command
  deriving DecidableEq, Repr

/-- Why a reading is stuck: another token was wanted, or a numeral has no value as a number or no
integer part. -/
inductive Fault where
  | wanted (wanted : Wanted)
  | notANumeral (text : String)
  | unbounded (cause : Binary64.Unbounded)
  deriving DecidableEq, Repr

/-- What is read from the front of some tokens, and the tokens that are left. -/
inductive Reading (α : Type) where
  | done (value : α) (rest : List Token)
  | stuck (fault : Fault) (rest : List Token)

namespace Reading

def map {α β : Type} (make : α → β) : Reading α → Reading β
  | .done value rest => .done (make value) rest
  | .stuck fault rest => .stuck fault rest

def bind {α β : Type} (reading : Reading α) (next : α → List Token → Reading β) : Reading β :=
  match reading with
  | .done value rest => next value rest
  | .stuck fault rest => .stuck fault rest

end Reading

def numberOf (text : String) : Except Fault Binary64 :=
  match Binary64.ofText? text with
  | some number => .ok number
  | none => .error (.notANumeral text)

/-- The integer that a numeral stands for, its fraction cut off. -/
def countOf (text : String) : Except Fault Int :=
  match numberOf text with
  | .ok number => number.truncate.mapError .unbounded
  | .error fault => .error fault

/-- Reads one token for each slot. An operand is taken before the token after it is looked at. -/
def readSlots : (slots : List Slot) → List Token → Reading (Operands slots)
  | [], tokens => .done () tokens
  | slot :: _, [] => .stuck (.wanted (.kind slot.kind)) []
  | .mark kind :: later, token :: rest =>
      if token.kind = kind then readSlots later rest
      else .stuck (.wanted (.kind kind)) (token :: rest)
  | .number :: later, token :: rest =>
      if token.kind = .number then
        match numberOf token.text with
        | .ok number => (readSlots later rest).map fun operands => (number, operands)
        | .error fault => .stuck fault rest
      else .stuck (.wanted (.kind .number)) (token :: rest)
  | .count :: later, token :: rest =>
      if token.kind = .number then
        match countOf token.text with
        | .ok count => (readSlots later rest).map fun operands => (count, operands)
        | .error fault => .stuck fault rest
      else .stuck (.wanted (.kind .number)) (token :: rest)
  | .string :: later, token :: rest =>
      if token.kind = .string then
        (readSlots later rest).map fun operands => (token.text, operands)
      else .stuck (.wanted (.kind .string)) (token :: rest)
  | .name :: later, token :: rest =>
      if token.kind = .identifier then
        (readSlots later rest).map fun operands => (token.text, operands)
      else .stuck (.wanted (.kind .identifier)) (token :: rest)

theorem readSlots_length {slots : List Slot} {tokens rest : List Token} {operands : Operands slots}
    (read : readSlots slots tokens = .done operands rest) : rest.length ≤ tokens.length := by
  induction slots generalizing tokens with
  | nil =>
      cases tokens <;> simp only [readSlots, Reading.done.injEq] at read <;> simp [← read.2]
  | cons slot later ih =>
      have mapped : ∀ {β : Type} {make : Operands later → β} {value : β} {tail : List Token},
          (readSlots later tail).map make = .done value rest → rest.length ≤ tail.length + 1 := by
        intro β make value tail map
        cases reading : readSlots later tail with
        | done operands left =>
            rw [reading] at map
            simp only [Reading.map, Reading.done.injEq] at map
            rw [map.2] at reading
            exact Nat.le_succ_of_le (ih reading)
        | stuck fault left => simp [reading, Reading.map] at map
      cases tokens with
      | nil => cases slot <;> simp [readSlots] at read
      | cons token tail =>
          cases slot with
          | mark kind =>
              simp only [readSlots] at read
              split at read
              · exact Nat.le_succ_of_le (ih read)
              · simp at read
          | number =>
              simp only [readSlots] at read
              split at read
              · split at read
                · exact mapped read
                · simp at read
              · simp at read
          | count =>
              simp only [readSlots] at read
              split at read
              · split at read
                · exact mapped read
                · simp at read
              · simp at read
          | string =>
              simp only [readSlots] at read
              split at read
              · exact mapped read
              · simp at read
          | name =>
              simp only [readSlots] at read
              split at read
              · exact mapped read
              · simp at read

/-- Whether a block of commands ends at the front of some tokens: at a closing brace, or at the end of
the program. -/
def atBlockEnd : List Token → Bool
  | [] => true
  | token :: _ => token.kind == .rightBrace || token.kind == .endOfFile

/-- A reading that made something left fewer than so many tokens. -/
def Reading.LeavesLess {α : Type} (bound : Nat) : Reading α → Prop
  | .done _ rest => rest.length < bound
  | .stuck _ _ => True

mutual

/-- Reads commands up to the end of a block. The end itself is left. -/
def readCommands (tokens : List Token) :
    { reading : Reading (List Command) // reading.LeavesLess (tokens.length + 1) } :=
  if atBlockEnd tokens then ⟨.done [] tokens, Nat.lt_succ_self _⟩
  else
    match readCommand tokens with
    | ⟨.stuck fault rest, _⟩ => ⟨.stuck fault rest, trivial⟩
    | ⟨.done command rest, _shorter⟩ =>
        match readCommands rest with
        | ⟨.stuck fault left, _⟩ => ⟨.stuck fault left, trivial⟩
        | ⟨.done later left, shorter⟩ =>
            ⟨.done (command :: later) left, by simp only [Reading.LeavesLess] at *; omega⟩
  termination_by (tokens.length, 1)
  decreasing_by
    · omega
    · simp only [Reading.LeavesLess] at _shorter; omega

def readCommand (tokens : List Token) :
    { reading : Reading Command // reading.LeavesLess tokens.length } :=
  match tokens with
  | [] => ⟨.stuck (.wanted .command) [], trivial⟩
  | token :: rest =>
      if token.kind = .identifier then
        match Keyword.ofWord? token.text with
        | none => ⟨.stuck (.wanted .command) (token :: rest), trivial⟩
        | some keyword =>
            match keyword.form with
            | .simple slots build =>
                match read : readSlots slots rest with
                | .stuck fault left => ⟨.stuck fault left, trivial⟩
                | .done operands left =>
                    ⟨.done (build operands token.location) left,
                      Nat.lt_succ_of_le (readSlots_length read)⟩
            | .block tail build =>
                match opened : readSlots [.mark .leftBrace] rest with
                | .stuck fault left => ⟨.stuck fault left, trivial⟩
                | .done _ inside =>
                    match readCommands inside with
                    | ⟨.stuck fault left, _⟩ => ⟨.stuck fault left, trivial⟩
                    | ⟨.done commands after, shorter⟩ =>
                        match closed : readSlots tail after with
                        | .stuck fault left => ⟨.stuck fault left, trivial⟩
                        | .done operands left =>
                            ⟨.done (build commands operands token.location) left, by
                              have := readSlots_length opened
                              have := readSlots_length closed
                              simp only [Reading.LeavesLess, List.length_cons] at *
                              omega⟩
      else ⟨.stuck (.wanted .command) (token :: rest), trivial⟩
  termination_by (tokens.length, 0)
  decreasing_by
    simp_wf
    have := readSlots_length opened
    omega

end

def readBlock (tokens : List Token) : Reading (List Command) := (readCommands tokens).val

/-- Reads a program: a word, and a block in braces. -/
def readProgram (tokens : List Token) : Reading Program :=
  (readSlots [.word, .mark .leftBrace] tokens).bind fun _ inside =>
    (readBlock inside).bind fun commands after =>
      (readSlots [.mark .rightBrace] after).map fun _ =>
        ⟨commands, tokens.head?.bind Token.location⟩

def Wanted.name : Wanted → String
  | .kind wantedKind => wantedKind.name
  | .command => "command"

/-- The message for a token that stands where something else is wanted. -/
def Wanted.message (wanted : Wanted) (found : Token) : String :=
  match wanted with
  | .kind wantedKind => "Expected " ++ wantedKind.name ++ ", got " ++ found.kind.name
  | .command =>
      if found.kind = .identifier then "Unknown command: " ++ found.text
      else "Expected command, got " ++ found.kind.name

/-- The error for a token that stands where something else is wanted. -/
def Wanted.error (wanted : Wanted) (found : Token) : SourceError :=
  .strayToken (wanted.message found) found.location (some wanted.name) (.token found)

/-- Why a program cannot be read: an error in it, or a numeral without a value. -/
inductive ReadFailure where
  | source (error : SourceError)
  | notANumeral (text : String)
  | unbounded (cause : Binary64.Unbounded)
  deriving DecidableEq, Repr

def ReadFailure.message : ReadFailure → String
  | .source error => error.message
  | .notANumeral text => "could not convert string to float: " ++ quoted text
  | .unbounded cause => cause.message

/-- A program that was read, and how many tokens after it were left unread. -/
structure ReadProgram where
  program : Program
  ignored : Nat

/-- The notice about tokens after a program, if there are any. -/
def ReadProgram.notices (read : ReadProgram) : List Notice :=
  if read.ignored = 0 then [] else [.trailingTokens read.ignored]

/-- The tokens of a program and how many of them were read. The token `finish` stands for the end of
the program where the tokens have none. -/
structure Parser where
  tokens : List Token
  finish : Token
  position : Nat

namespace Parser

/-- The place of the end of a program: past the end of its text, or, if the text is not known, past the
text of its last token. -/
def finishLocation (tokens : List Token) (source : String) (filename : String) : Option Location :=
  if source = "" then
    tokens.getLast?.bind fun last =>
      last.location.map fun location =>
        { location with
          column := location.column + last.text.length
          offset := location.offset + last.text.length }
  else
    let lines := newlineParts source.toList
    let lastLine := lines.getLast?.getD []
    some ⟨lines.length, lastLine.length + 1, source.length, some filename⟩

def ofTokens (tokens : List Token) (source : String) (filename : String) : Parser :=
  { tokens
    finish := ⟨.endOfFile, "EOF", finishLocation tokens source filename⟩
    position := 0 }

/-- The token at the front of those that are left, or the end of the program. -/
def current (parser : Parser) (rest : List Token) : Token := rest.head?.getD parser.finish

/-- A failure to read, told at the token where reading is stuck. -/
def failure (parser : Parser) (fault : Fault) (rest : List Token) : ReadFailure :=
  match fault with
  | .wanted wanted => .source (wanted.error (parser.current rest))
  | .notANumeral text => .notANumeral text
  | .unbounded cause => .unbounded cause

/-- The tokens that are left to be read. -/
def remaining (parser : Parser) : List Token := parser.tokens.drop parser.position

/-- The parser when no more than some of the tokens that were left are left. -/
def leaving (parser : Parser) (rest : List Token) : Parser :=
  { parser with position := parser.position + (parser.remaining.length - rest.length) }

/-- Reads a program from the tokens that are left, and keeps the position where reading stopped. -/
def parse (parser : Parser) : Except ReadFailure ReadProgram × Parser :=
  match readProgram parser.remaining with
  | .done program rest =>
      let ignored := if (parser.current rest).kind = .endOfFile then 0 else rest.length
      (.ok ⟨program, ignored⟩, parser.leaving rest)
  | .stuck fault rest => (.error (parser.failure fault rest), parser.leaving rest)

end Parser

/-- The program that tokens make up. The text of the program may be given to place its end. -/
def programOfTokens (tokens : List Token) (source : String) (filename : String) :
    Except ReadFailure ReadProgram :=
  ((Parser.ofTokens tokens source filename).parse).1

def inputName : String := "<input>"

def programOfSource (source : String) (filename : Option String) : Except ReadFailure ReadProgram :=
  match tokensOf source filename with
  | .error error => .error (.source error)
  | .ok tokens => programOfTokens tokens source ((filename.filter (· ≠ "")).getD inputName)

end TermScene
