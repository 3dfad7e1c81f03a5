import TermScene.Location
import TermScene.Text.Quoted

/-!
# Tokens

A token is a piece of program text with its kind and the place where it starts. Two tokens agree when
their kinds and texts do; the place does not count.
-/

namespace TermScene

/-- The kinds of tokens. Whitespace and comments are recognised but never kept, and the end of the
program is no piece of its text. -/
inductive TokenKind where
  | number
  | string
  | identifier
  | leftParen
  | rightParen
  | leftBrace
  | rightBrace
  | leftBracket
  | rightBracket
  | semicolon
  | comma
  | assign
  | arrow
  | whitespace
  | comment
  | endOfFile
  deriving DecidableEq, Repr, Inhabited

namespace TokenKind

def name : TokenKind → String
  | .number => "NUMBER"
  | .string => "STRING"
  | .identifier => "IDENTIFIER"
  | .leftParen => "LPAREN"
  | .rightParen => "RPAREN"
  | .leftBrace => "LBRACE"
  | .rightBrace => "RBRACE"
  | .leftBracket => "LBRACKET"
  | .rightBracket => "RBRACKET"
  | .semicolon => "SEMICOLON"
  | .comma => "COMMA"
  | .assign => "ASSIGN"
  | .arrow => "ARROW"
  | .whitespace => "WHITESPACE"
  | .comment => "COMMENT"
  | .endOfFile => "EOF"

def all : List TokenKind :=
  [.number, .string, .identifier, .leftParen, .rightParen, .leftBrace, .rightBrace, .leftBracket,
    .rightBracket, .semicolon, .comma, .assign, .arrow, .whitespace, .comment, .endOfFile]

def ofName? (name : String) : Option TokenKind := all.find? fun kind => kind.name = name

def isKept : TokenKind → Bool
  | .whitespace => false
  | .comment => false
  | _ => true

end TokenKind

/-- A piece of program text. A string keeps its quotes. -/
structure Token where
  kind : TokenKind
  text : String
  location : Option Location := none
  deriving DecidableEq, Repr

namespace Token

/-- Whether two tokens have the same kind and text. -/
def agrees (left right : Token) : Bool := left.kind == right.kind && left.text == right.text

def describe (token : Token) : String :=
  let place :=
    match token.location with
    | some location => ", " ++ location.describe
    | none => ""
  "Token(" ++ token.kind.name ++ ", " ++ quoted token.text ++ place ++ ")"

end Token

end TermScene
