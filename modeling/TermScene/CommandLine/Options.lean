import TermScene.Text.Numeral

/-!
# Options on a command line

A command line is a list of words. A word is an option, an operand, or the separator `--`, after which
every word is an operand. Options have long names, which may be cut short as long as they are the start
of no other, and some have letters, of which several may stand in one word, with an equals sign after the
first of them or without one. An option that takes a value has it in the same word after an equals sign, or
in the next word; the separator after the equals sign takes back an earlier value.

Words that look like negative numbers, or that start like an option but hold a space, are operands
unless they are options.

What the words say is a list of events in the order of the words. Only a name that is cut too short
spoils the whole command line at once; any other misuse is an event among the others, so that an option
before it may still be obeyed.
-/

namespace TermScene

/-- The options that a tool knows: letters for options without a value, long names for all options,
which of them take a value, and how many operands are taken. -/
structure OptionTable (ι : Type) where
  letters : List (Char × ι) := []
  names : List (String × ι)
  takesValue : ι → Bool
  operands : Nat := 0

/-- A word, as far as it can be understood by itself. -/
inductive ArgumentWord (ι : Type) where
  | operand (text : String)
  | separator
  | flags (options : List ι)
  | value (option : ι) (attached : Option String)
  | cleared (option : ι)
  | unknown
  | misuse
  deriving DecidableEq, Repr

/-- What a command line says, one thing after the other. -/
inductive ArgumentEvent (ι : Type) where
  | flag (option : ι)
  | value (option : ι) (text : String)
  | cleared (option : ι)
  | operand (text : String)
  | unknown
  | misuse
  deriving DecidableEq, Repr

/-- Whether a word looks like a negative number: a minus and digits, with at most one point that has
a digit after it. A newline at the end does not count. -/
def looksNegative (word : List Char) : Bool :=
  match word with
  | '-' :: body =>
      let body := if body.getLast? = some '\n' then body.dropLast else body
      let fraction := body.dropWhile isDigit
      match fraction with
      | [] => !body.isEmpty
      | '.' :: digits => !digits.isEmpty && digits.all isDigit
      | _ => false
  | _ => false

namespace OptionTable

variable {ι : Type} (table : OptionTable ι)

def letter? (letter : Char) : Option ι := table.letters.lookup letter

/-- An option with the text that is attached to it, if there is one. -/
def withAttached (option : ι) (attached : Option String) : ArgumentWord ι :=
  if table.takesValue option then
    if attached = some "--" then .cleared option else .value option attached
  else if attached.isSome then .misuse
  else .flags [option]

def letterWord (letters : List Char) : ArgumentWord ι :=
  match letters.mapM table.letter? with
  | some options => .flags options
  | none => .misuse

/-- A word that starts with a known letter. After an equals sign there must be more letters. -/
def clusterWord (first : Char) (later : List Char) : ArgumentWord ι :=
  match later with
  | ['='] => .misuse
  | '=' :: letters => table.letterWord (first :: letters)
  | letters => table.letterWord (first :: letters)

def plainWord (word : List Char) : ArgumentWord ι :=
  if looksNegative word ∨ word.contains ' ' then .operand (String.ofList word) else .unknown

/-- The name in a word and the text after the first equals sign. -/
def nameAndText (word : List Char) : String × Option String :=
  let name := word.takeWhile (· ≠ '=')
  (String.ofList name,
    match word.drop name.length with
    | _ :: text => some (String.ofList text)
    | [] => none)

/-- The options whose long names start with a text. -/
def optionsStarting (start : String) : List ι :=
  (table.names.filter fun entry => start.toList.isPrefixOf entry.1.toList).map Prod.snd

/-- A word that starts like a long name. There is no reading of a name that is cut too short. -/
def longWord (word : List Char) : Option (ArgumentWord ι) :=
  let (name, text) := nameAndText word
  match table.names.lookup name with
  | some option => some (table.withAttached option text)
  | none =>
      match table.optionsStarting name with
      | [] => some (plainWord word)
      | [option] => some (table.withAttached option text)
      | _ => none

def readWord (word : List Char) : Option (ArgumentWord ι) :=
  match word with
  | '-' :: '-' :: _ => table.longWord word
  | '-' :: letter :: later =>
      if (table.letter? letter).isSome then some (table.clusterWord letter later)
      else some (plainWord word)
  | _ => some (.operand (String.ofList word))

def readWords : List String → Option (List (ArgumentWord ι))
  | [] => some []
  | word :: later =>
      if word = "--" then some (.separator :: later.map .operand)
      else
        match table.readWord word.toList, readWords later with
        | some first, some rest => some (first :: rest)
        | _, _ => none

/-- What words say, when so many operands are still taken. The separator belongs to an operand beside
it; where no operand is taken any more it is one too many, like any other operand. -/
def events (operands : Nat) : List (ArgumentWord ι) → List (ArgumentEvent ι)
  | [] => []
  | .flags options :: later => options.map .flag ++ events operands later
  | .value option (some text) :: later => .value option text :: events operands later
  | .value option none :: .operand text :: later => .value option text :: events operands later
  | .value _ none :: later => .misuse :: events operands later
  | .cleared option :: later => .cleared option :: events operands later
  | .unknown :: later => .unknown :: events operands later
  | .misuse :: later => .misuse :: events operands later
  | .operand text :: .separator :: later =>
      if operands = 0 then .unknown :: .unknown :: events 0 later
      else .operand text :: events (operands - 1) later
  | .operand text :: later =>
      if operands = 0 then .unknown :: events 0 later
      else .operand text :: events (operands - 1) later
  | .separator :: .operand text :: later =>
      if operands = 0 then .unknown :: .unknown :: events 0 later
      else .operand text :: events (operands - 1) later
  | .separator :: later =>
      if operands = 0 then .unknown :: events 0 later else events (operands - 1) later

def read (words : List String) : Option (List (ArgumentEvent ι)) :=
  (table.readWords words).map (events table.operands)

end OptionTable

/-- Why a tool does not go on after reading its command line: it was asked for help or for its version,
or the command line makes no sense. -/
inductive Halt where
  | help
  | version
  | misuse
  deriving DecidableEq, Repr

/-- Obeys what a command line says, one thing after the other. Unknown words are complained about only
when everything else has been obeyed. -/
def OptionTable.obey {ι σ : Type} (table : OptionTable ι) (act : σ → ArgumentEvent ι → Except Halt σ)
    (start : σ) (words : List String) : Except Halt σ :=
  match table.read words with
  | none => .error .misuse
  | some events =>
      match events.foldlM act start with
      | .error halt => .error halt
      | .ok final => if events.any (· matches .unknown) then .error .misuse else .ok final

end TermScene
