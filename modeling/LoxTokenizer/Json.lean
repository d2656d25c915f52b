/-!
# JSON

Values of the data format and their pretty form: two spaces for each level, one item or member to
a line, and an empty array or object on one line. A number is kept as it is written.
-/

namespace LoxTokenizer

/-- A JSON value. The members of an object keep their order. -/
inductive Json where
  | null
  | number (numeral : String)
  | string (s : String)
  | array (items : List Json)
  | object (members : List (String × Json))

namespace Json

/-- A natural number. -/
def natural (n : Nat) : Json :=
  .number (toString n)

/-- A code point below 256 as two hexadecimal digits. -/
def hexByte (code : Nat) : List Char :=
  [Nat.digitChar (code / 16), Nat.digitChar (code % 16)]

/-- A character inside a string: the quote and the backslash are escaped, and so are the controls
below the space, five of which have a letter of their own. -/
def escape (c : Char) : List Char :=
  if c = '"' then ['\\', '"']
  else if c = '\\' then ['\\', '\\']
  else if c = '\x08' then ['\\', 'b']
  else if c = '\t' then ['\\', 't']
  else if c = '\n' then ['\\', 'n']
  else if c = '\x0c' then ['\\', 'f']
  else if c = '\r' then ['\\', 'r']
  else if c.toNat < 0x20 then ['\\', 'u', '0', '0'] ++ hexByte c.toNat
  else [c]

/-- A string in quotes. -/
def quote (s : String) : List Char :=
  '"' :: s.toList.flatMap escape ++ ['"']

/-- The start of a line at some level. -/
def newLine (level : Nat) : List Char :=
  '\n' :: List.replicate (2 * level) ' '

mutual

/-- The pretty form of a value that stands at some level. -/
def pretty (level : Nat) : Json → List Char
  | .null => "null".toList
  | .number numeral => numeral.toList
  | .string s => quote s
  | .array [] => ['[', ']']
  | .array (item :: items) =>
    '[' :: newLine (level + 1) ++ pretty (level + 1) item ++ prettyItems (level + 1) items
      ++ newLine level ++ [']']
  | .object [] => ['{', '}']
  | .object ((key, value) :: members) =>
    '{' :: newLine (level + 1) ++ quote key ++ [':', ' '] ++ pretty (level + 1) value
      ++ prettyMembers (level + 1) members ++ newLine level ++ ['}']

/-- The items after the first one, each after a comma on a line of its own. -/
def prettyItems (level : Nat) : List Json → List Char
  | [] => []
  | item :: items => ',' :: newLine level ++ pretty level item ++ prettyItems level items

/-- The members after the first one, each after a comma on a line of its own. -/
def prettyMembers (level : Nat) : List (String × Json) → List Char
  | [] => []
  | (key, value) :: members =>
    ',' :: newLine level ++ quote key ++ [':', ' '] ++ pretty level value
      ++ prettyMembers level members

end

/-- The pretty form of a value. -/
def render (value : Json) : String :=
  String.ofList (value.pretty 0)

end Json

end LoxTokenizer
