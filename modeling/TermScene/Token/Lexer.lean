import TermScene.SourceError
import TermScene.Token.Lexeme

/-!
# Reading tokens

A `Lexer` reads the tokens of a program. It keeps the cursor where reading stopped: at the end of the
text, or at the first character that begins no lexeme. Reading again goes on from there.
-/

namespace TermScene

/-- How far a text could be read: the tokens kept, the place where reading stopped and the text from
there on. -/
structure Scan where
  tokens : List Token
  cursor : Cursor
  rest : List Char
  deriving DecidableEq, Repr

/-- Reads lexemes as long as there are any, starting at a cursor. -/
def scan (filename : Option String) (cursor : Cursor) (chars : List Char) : Scan :=
  match _found : Lexeme.first? chars with
  | none => ⟨[], cursor, chars⟩
  | some lexeme =>
      let later := scan filename (cursor.advance lexeme.chars) lexeme.rest
      if lexeme.kind.isKept then
        { later with
          tokens :=
            ⟨lexeme.kind, String.ofList lexeme.chars, some (cursor.location filename)⟩
              :: later.tokens }
      else later
  termination_by chars.length
  decreasing_by exact Lexeme.first?_rest_length _found

/-- A reader of tokens: the program, the text not yet read and its place, and the tokens of the last
reading that succeeded. -/
structure Lexer where
  source : String
  filename : Option String
  cursor : Cursor
  rest : List Char
  tokens : List Token
  deriving DecidableEq, Repr

namespace Lexer

def ofSource (source : String) (filename : Option String) : Lexer :=
  ⟨source, filename, .start, source.toList, []⟩

/-- The line of the program on which the cursor stands. -/
def currentLine (lexer : Lexer) : String :=
  let lineStart := lexer.cursor.offset + 1 - lexer.cursor.column
  String.ofList ((lexer.source.toList.drop lineStart).takeWhile (· ≠ '\n'))

/-- The error at a character that begins no lexeme. -/
def unexpected (lexer : Lexer) (char : Char) : SourceError :=
  .strayCharacter (String.singleton char) (some (lexer.cursor.location lexer.filename))
    (some lexer.currentLine)

/-- Reads the tokens up to the end of the program. If a character begins no lexeme, the reader stops
there and the tokens before it are given up. -/
def tokenize (lexer : Lexer) : Except SourceError (List Token) × Lexer :=
  let result := scan lexer.filename lexer.cursor lexer.rest
  let moved := { lexer with cursor := result.cursor, rest := result.rest }
  match result.rest with
  | [] => (.ok result.tokens, { moved with tokens := result.tokens })
  | char :: _ => (.error (moved.unexpected char), moved)

end Lexer

def tokensOf (source : String) (filename : Option String) : Except SourceError (List Token) :=
  ((Lexer.ofSource source filename).tokenize).1

end TermScene
