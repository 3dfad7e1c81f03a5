import TermScene.Binary64.Decimal
import TermScene.Program
import TermScene.Token

/-!
# The grammar of programs

A program is a word and a block, and a block is a sequence of commands in braces. Each of the ten
commands is a fixed sequence of tokens behind its first word; `frame` and `animate` hold a block
themselves, so the grammar is recursive there and only there. Marker words such as `at` or `radius`
may be any identifier.

The relations say which tokens make up a command, a sequence of commands or a program, and which tree
they stand for. They are written out production by production and mention neither the forms of
commands nor the way in which a program is read.
-/

namespace TermScene

/-- The characters of a text, and those that are left of it without its quotation marks. -/
inductive Unquotes : List Char → List Char → Prop where
  | nil : Unquotes [] []
  | quote {text content : List Char} (isRest : Unquotes text content) :
      Unquotes ('"' :: text) content
  | other {char : Char} {text content : List Char} (noQuote : char ≠ '"')
      (isRest : Unquotes text content) : Unquotes (char :: text) (char :: content)

namespace Token

/-- An identifier with a given text. -/
def IsWord (token : Token) (text : String) : Prop :=
  token.kind = .identifier ∧ token.text = text

/-- A numeral and the number that it stands for. -/
def HasNumber (token : Token) (number : Binary64) : Prop :=
  token.kind = .number ∧ Binary64.ofText? token.text = some number

/-- A numeral and the integer part of the number that it stands for. -/
def HasCount (token : Token) (count : Int) : Prop :=
  ∃ number, token.HasNumber number ∧ number.truncate = .ok count

/-- A string and what it says without its quotation marks. -/
def HasContent (token : Token) (content : String) : Prop :=
  token.kind = .string ∧ Unquotes token.text.toList content.toList

end Token

/-- `'(' NUMBER ',' NUMBER ')'` -/
inductive DerivesPoint : List Token → Binary64 → Binary64 → Prop where
  | point {left first comma second right : Token} {x y : Binary64}
      (opens : left.kind = .leftParen) (isX : first.HasNumber x) (parts : comma.kind = .comma)
      (isY : second.HasNumber y) (closes : right.kind = .rightParen) :
      DerivesPoint [left, first, comma, second, right] x y

/-- The commands without a block, each ended by a semicolon. -/
inductive DerivesPlain : List Token → Command → Prop where
  /-- `background STRING ';'` -/
  | background {word color stop : Token} (starts : word.IsWord "background")
      (isColor : color.kind = .string) (stops : stop.kind = .semicolon) :
      DerivesPlain [word, color, stop] (.background color.text word.location)
  /-- `circle IDENTIFIER point IDENTIFIER NUMBER IDENTIFIER STRING ';'` -/
  | circle {word at' beforeSize size beforeFill fill stop : Token} {point : List Token}
      {x y radius : Binary64} (starts : word.IsWord "circle") (isAt : at'.kind = .identifier)
      (isPoint : DerivesPoint point x y) (marksSize : beforeSize.kind = .identifier)
      (isSize : size.HasNumber radius) (marksFill : beforeFill.kind = .identifier)
      (isFill : fill.kind = .string) (stops : stop.kind = .semicolon) :
      DerivesPlain (word :: at' :: point ++ [beforeSize, size, beforeFill, fill, stop])
        (.draw (.circle x y radius fill.text) word.location)
  /-- `rect IDENTIFIER point IDENTIFIER NUMBER IDENTIFIER NUMBER IDENTIFIER STRING ';'` -/
  | rect {word at' beforeWide wide beforeHigh high beforeFill fill stop : Token}
      {point : List Token} {x y width height : Binary64} (starts : word.IsWord "rect")
      (isAt : at'.kind = .identifier) (isPoint : DerivesPoint point x y)
      (marksWide : beforeWide.kind = .identifier) (isWide : wide.HasNumber width)
      (marksHigh : beforeHigh.kind = .identifier) (isHigh : high.HasNumber height)
      (marksFill : beforeFill.kind = .identifier) (isFill : fill.kind = .string)
      (stops : stop.kind = .semicolon) :
      DerivesPlain
        (word :: at' :: point ++ [beforeWide, wide, beforeHigh, high, beforeFill, fill, stop])
        (.draw (.rect x y width height fill.text) word.location)
  /-- `text STRING IDENTIFIER point IDENTIFIER NUMBER IDENTIFIER STRING ';'` -/
  | text {word quoted at' beforeSize size beforeColor color stop : Token} {point : List Token}
      {content : String} {x y : Binary64} {points : Int} (starts : word.IsWord "text")
      (isContent : quoted.HasContent content) (isAt : at'.kind = .identifier)
      (isPoint : DerivesPoint point x y) (marksSize : beforeSize.kind = .identifier)
      (isSize : size.HasCount points) (marksColor : beforeColor.kind = .identifier)
      (isColor : color.kind = .string) (stops : stop.kind = .semicolon) :
      DerivesPlain
        (word :: quoted :: at' :: point ++ [beforeSize, size, beforeColor, color, stop])
        (.draw (.text content x y points color.text) word.location)
  /-- `line IDENTIFIER point IDENTIFIER point IDENTIFIER STRING ';'` -/
  | line {word from' to' beforeColor color stop : Token} {start finish : List Token}
      {x1 y1 x2 y2 : Binary64} (starts : word.IsWord "line") (isFrom : from'.kind = .identifier)
      (isStart : DerivesPoint start x1 y1) (isTo : to'.kind = .identifier)
      (isFinish : DerivesPoint finish x2 y2) (marksColor : beforeColor.kind = .identifier)
      (isColor : color.kind = .string) (stops : stop.kind = .semicolon) :
      DerivesPlain (word :: from' :: start ++ to' :: finish ++ [beforeColor, color, stop])
        (.draw (.line x1 y1 x2 y2 color.text) word.location)
  /-- `var IDENTIFIER '=' NUMBER ';'` -/
  | var {word name sign number stop : Token} {value : Binary64} (starts : word.IsWord "var")
      (isName : name.kind = .identifier) (assigns : sign.kind = .assign)
      (isNumber : number.HasNumber value) (stops : stop.kind = .semicolon) :
      DerivesPlain [word, name, sign, number, stop] (.define name.text value word.location)
  /-- `rainbow STRING IDENTIFIER point IDENTIFIER NUMBER ';'` -/
  | rainbow {word quoted at' beforeSteps steps stop : Token} {point : List Token}
      {content : String} {x y : Binary64} {duration : Int} (starts : word.IsWord "rainbow")
      (isContent : quoted.HasContent content) (isAt : at'.kind = .identifier)
      (isPoint : DerivesPoint point x y) (marksSteps : beforeSteps.kind = .identifier)
      (isSteps : steps.HasCount duration) (stops : stop.kind = .semicolon) :
      DerivesPlain (word :: quoted :: at' :: point ++ [beforeSteps, steps, stop])
        (.rainbow content x y duration word.location)
  /-- `wait NUMBER ';'` -/
  | wait {word time stop : Token} {duration : Int} (starts : word.IsWord "wait")
      (isTime : time.HasCount duration) (stops : stop.kind = .semicolon) :
      DerivesPlain [word, time, stop] (.wait duration word.location)

mutual

/-- The tokens of one command and the command that they stand for. -/
inductive DerivesCommand : List Token → Command → Prop where
  | plain {tokens : List Token} {command : Command} (isPlain : DerivesPlain tokens command) :
      DerivesCommand tokens command
  /-- `frame '{' command* '}'` -/
  | frame {word left right : Token} {body : List Token} {commands : List Command}
      (starts : word.IsWord "frame") (opens : left.kind = .leftBrace)
      (isBody : DerivesCommands body commands) (closes : right.kind = .rightBrace) :
      DerivesCommand (word :: left :: body ++ [right]) (.frame commands word.location)
  /-- `animate '{' command* '}' IDENTIFIER NUMBER ';'` -/
  | animate {word left right for' time stop : Token} {body : List Token}
      {children : List Command} {duration : Int} (starts : word.IsWord "animate")
      (opens : left.kind = .leftBrace) (isBody : DerivesCommands body children)
      (closes : right.kind = .rightBrace) (isFor : for'.kind = .identifier)
      (isTime : time.HasCount duration) (stops : stop.kind = .semicolon) :
      DerivesCommand (word :: left :: body ++ [right, for', time, stop])
        (.animate children duration word.location)

/-- The tokens of commands in a row and the commands that they stand for. -/
inductive DerivesCommands : List Token → List Command → Prop where
  | none : DerivesCommands [] []
  | some {first later : List Token} {command : Command} {commands : List Command}
      (isFirst : DerivesCommand first command) (isLater : DerivesCommands later commands) :
      DerivesCommands (first ++ later) (command :: commands)

end

/-- `IDENTIFIER '{' command* '}'`: the tokens of a program and the program that they stand for. -/
inductive DerivesProgram : List Token → Program → Prop where
  | program {word left right : Token} {body : List Token} {commands : List Command}
      (starts : word.kind = .identifier) (opens : left.kind = .leftBrace)
      (isBody : DerivesCommands body commands) (closes : right.kind = .rightBrace) :
      DerivesProgram (word :: left :: body ++ [right]) ⟨commands, word.location⟩

end TermScene
