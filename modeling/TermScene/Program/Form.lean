import TermScene.Binary64.Decimal
import TermScene.Program
import TermScene.Token

/-!
# Forms of commands

Every command is written in a fixed form: its first word and then a fixed sequence of slots, each
taken by one token. Some slots hold a mark that only has to be there, some hold an operand. The form of
a block ends with the slots that follow its commands. Marker words such as `at` or `radius` may be any
identifier.
-/

namespace TermScene

/-- What may stand in one place of a form: a token of a kind, or a token that is an operand. A `count`
is a numeral whose fraction is cut off. -/
inductive Slot where
  | mark (kind : TokenKind)
  | number
  | count
  | string
  | name
  deriving DecidableEq, Repr

namespace Slot

def kind : Slot → TokenKind
  | .mark kind => kind
  | .number => .number
  | .count => .number
  | .string => .string
  | .name => .identifier

abbrev word : Slot := .mark .identifier

end Slot

@[reducible]
def Operands : List Slot → Type
  | [] => Unit
  | .mark _ :: later => Operands later
  | .number :: later => Binary64 × Operands later
  | .count :: later => Int × Operands later
  | .string :: later => String × Operands later
  | .name :: later => String × Operands later

/-- The form of a command after its first word: slots, or a block of commands in braces followed by
slots; and the command it makes. -/
inductive Form where
  | simple (slots : List Slot) (build : Operands slots → Option Location → Command)
  | block (tail : List Slot) (build : List Command → Operands tail → Option Location → Command)

def withoutQuotes (text : String) : String :=
  String.ofList (text.toList.filter (· ≠ '"'))

namespace Keyword

/-- The form of the command with a given first word. -/
def form : Keyword → Form
  | .background =>
      .simple [.string, .mark .semicolon] fun (color, ()) place => .background color place
  | .circle =>
      .simple
        [.word, .mark .leftParen, .number, .mark .comma, .number, .mark .rightParen, .word, .number,
          .word, .string, .mark .semicolon]
        fun (x, y, radius, fill, ()) place => .draw (.circle x y radius fill) place
  | .rect =>
      .simple
        [.word, .mark .leftParen, .number, .mark .comma, .number, .mark .rightParen, .word, .number,
          .word, .number, .word, .string, .mark .semicolon]
        fun (x, y, width, height, fill, ()) place => .draw (.rect x y width height fill) place
  | .text =>
      .simple
        [.string, .word, .mark .leftParen, .number, .mark .comma, .number, .mark .rightParen, .word,
          .count, .word, .string, .mark .semicolon]
        fun (content, x, y, size, color, ()) place =>
          .draw (.text (withoutQuotes content) x y size color) place
  | .line =>
      .simple
        [.word, .mark .leftParen, .number, .mark .comma, .number, .mark .rightParen, .word,
          .mark .leftParen, .number, .mark .comma, .number, .mark .rightParen, .word, .string,
          .mark .semicolon]
        fun (x1, y1, x2, y2, color, ()) place => .draw (.line x1 y1 x2 y2 color) place
  | .animate =>
      .block [.mark .rightBrace, .word, .count, .mark .semicolon]
        fun children (duration, ()) place => .animate children duration place
  | .var =>
      .simple [.name, .mark .assign, .number, .mark .semicolon]
        fun (name, value, ()) place => .define name value place
  | .rainbow =>
      .simple
        [.string, .word, .mark .leftParen, .number, .mark .comma, .number, .mark .rightParen, .word,
          .count, .mark .semicolon]
        fun (content, x, y, duration, ()) place =>
          .rainbow (withoutQuotes content) x y duration place
  | .wait =>
      .simple [.count, .mark .semicolon] fun (duration, ()) place => .wait duration place
  | .frame =>
      .block [.mark .rightBrace] fun commands () place => .frame commands place

end Keyword

end TermScene
