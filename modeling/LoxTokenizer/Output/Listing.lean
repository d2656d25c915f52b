import LoxTokenizer.Json
import LoxTokenizer.Output.Format
import LoxTokenizer.Text.Padding
import LoxTokenizer.Token.Basic

/-!
# Listings of tokens

A listing shows some tokens in one of the output formats. It is made of the pieces that are
written one after the other, so that a handle that gives out in the middle has taken the pieces
before.

The listing in words and the one in columns have a line for each token. The JSON listing is one
array of objects; an infinite number, for which JSON has no numeral, becomes `null`.
-/

namespace LoxTokenizer

namespace Literal

/-- A value in JSON. -/
def toJson : Literal → Json
  | .number value =>
    if value.isInfinite then .null else .number (NumberStyle.json.write value)
  | .text body => .string body
  | .lexeme raw => .string raw

end Literal

namespace Token

/-- A token as a JSON object. -/
def toJson (t : Token) : Json :=
  .object
    [("kind", .string t.kind.name),
     ("lexeme", .string t.lexeme),
     ("literal", t.literal.toJson),
     ("line", .natural t.line),
     ("column", .natural t.column),
     ("offset", .natural t.offset)]

/-- A token in columns: its line and column, its kind, and its lexeme in quotes. -/
def row (t : Token) : String :=
  (Text.Field.spaces .right 4).lay (toString t.line) ++ ":"
    ++ (Text.Field.spaces .left 3).lay (toString t.column) ++ " "
    ++ (Text.Field.spaces .left 15).lay t.kind.name ++ " "
    ++ Text.quoted t.lexeme

end Token

namespace Listing

/-- The tokens that a listing shows, with or without white space and comments. -/
def shown (trivia : Bool) (tokens : List Token) : List Token :=
  tokens.filter fun t => trivia || !t.kind.isTrivia

/-- The pieces of a listing, in the order in which they are written. -/
def pieces : OutputFormat → List Token → List String
  | .text, tokens => tokens.map fun t => t.render ++ "\n"
  | .json, tokens => [(Json.array (tokens.map Token.toJson)).render, "\n"]
  | .debug, tokens => tokens.map fun t => t.row ++ "\n"

/-- A whole listing. -/
def render (format : OutputFormat) (tokens : List Token) : String :=
  String.join (pieces format tokens)

end Listing

end LoxTokenizer
