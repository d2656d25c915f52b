import LoxTokenizer.Number.Numeral
import LoxTokenizer.Number.Style
import LoxTokenizer.Position
import LoxTokenizer.Text.Quoted
import LoxTokenizer.Token.Kind

/-!
# Tokens

A token is a kind, the text it was read from, the value that text stands for, and the span of the
text. Its line is the one *after* its last character, its column and offset are those of its first
one: a token that holds a line feed is listed under the line that follows it.
-/

namespace LoxTokenizer

/-- The value of a token. -/
inductive Literal where
  /-- The number nearest to a numeral. -/
  | number (value : Binary64)
  /-- What stands between the quotes of a string, or after the slashes of a comment. -/
  | text (body : String)
  /-- The lexeme itself, for every other kind. -/
  | lexeme (raw : String)
  deriving DecidableEq, Repr

namespace Literal

/-- The value of a lexeme of a given kind. There is none only for a number that is no numeral. -/
def ofLexeme? (kind : TokenKind) (lexeme : List Char) : Option Literal :=
  match kind with
  | .number => (Numeral.read? lexeme).map fun n => .number n.toBinary64
  | .string => some (.text (String.ofList (lexeme.drop 1).dropLast))
  | .comment => some (.text (String.ofList (lexeme.drop 2)))
  | _ => some (.lexeme (String.ofList lexeme))

/-- A value in words: a number in listing style, or a text in quotes. -/
def render : Literal → String
  | .number value => NumberStyle.listing.write value
  | .text body => Text.quoted body
  | .lexeme raw => Text.quoted raw

end Literal

/-- A piece of the source that is one unit of the language. -/
structure Token where
  kind : TokenKind
  lexeme : String
  literal : Literal
  span : Span
  deriving DecidableEq, Repr

namespace Token

/-- The line of the place after the token. -/
def line (t : Token) : Nat :=
  t.span.stop.line

/-- The column of the first character. -/
def column (t : Token) : Nat :=
  t.span.start.column

/-- The byte offset of the first character. -/
def offset (t : Token) : Nat :=
  t.span.start.offset

/-- The byte offset after the last character. -/
def endOffset (t : Token) : Nat :=
  t.offset + Text.byteLength t.lexeme.toList

/-- The marker of the end of a source, at the place after its last character. -/
def eof (place : Position) : Token :=
  ⟨.eof, "", .lexeme "", ⟨place, place⟩⟩

/-- A token in words: its kind, its lexeme in quotes, and its value. -/
def render (t : Token) : String :=
  t.kind.name ++ " " ++ Text.quoted t.lexeme ++ " " ++ t.literal.render

end Token

end LoxTokenizer
