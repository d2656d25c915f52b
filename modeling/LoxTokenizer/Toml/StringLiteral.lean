/-!
# Strings of a TOML document

The four ways to write a string: on one line or over several, with escapes between double quotes
or without them between single ones. Each reader starts after the opening quotes and answers with
the string and what follows the closing quotes, or with nothing if the string is ill-formed.

Over several lines a first line feed is dropped, an ending of two characters reads as a line feed,
and up to two quotes that stand right before the closing three belong to the string.
-/

namespace LoxTokenizer.Toml.StringLiteral

/-- Whether a character may stand for itself on one line: all but the controls other than the
tab. -/
def isInline (c : Char) : Bool :=
  c == '\t' || (' ' ≤ c && c != '\x7f')

/-- The value of a hexadecimal digit, in either case. -/
def hexDigit? (c : Char) : Option Nat :=
  if '0' ≤ c && c ≤ '9' then some (c.toNat - '0'.toNat)
  else if 'a' ≤ c && c ≤ 'f' then some (c.toNat - 'a'.toNat + 10)
  else if 'A' ≤ c && c ≤ 'F' then some (c.toNat - 'A'.toNat + 10)
  else none

/-- The number that hexadecimal digits stand for. -/
def hexValue? (digits : List Char) : Option Nat :=
  digits.foldlM (fun value c => (hexDigit? c).map fun d => 16 * value + d) 0

/-- The character with a code point in hexadecimal. A surrogate is none. -/
def scalar? (digits : List Char) : Option Char :=
  (hexValue? digits).bind fun code =>
    if h : code.isValidChar then some (Char.ofNatAux code h) else none

/-- The character that a letter after a backslash stands for. -/
def shortEscape? : Char → Option Char
  | 'b' => some '\x08'
  | 't' => some '\t'
  | 'n' => some '\n'
  | 'f' => some '\x0c'
  | 'r' => some '\r'
  | '"' => some '"'
  | '\\' => some '\\'
  | _ => none

/-- Puts a character in front of the string read. -/
def consChar (c : Char) (found : Option (List Char × List Char)) :
    Option (List Char × List Char) :=
  found.map fun (text, rest) => (c :: text, rest)

/-- The rest of a string with escapes on one line. -/
def basic : List Char → Option (List Char × List Char)
  | [] => none
  | '"' :: rest => some ([], rest)
  | '\\' :: 'u' :: a :: b :: c :: d :: rest =>
    (scalar? [a, b, c, d]).bind fun x => consChar x (basic rest)
  | '\\' :: 'U' :: a :: b :: c :: d :: e :: f :: g :: h :: rest =>
    (scalar? [a, b, c, d, e, f, g, h]).bind fun x => consChar x (basic rest)
  | '\\' :: letter :: rest => (shortEscape? letter).bind fun x => consChar x (basic rest)
  | c :: rest => if isInline c && c != '\\' then consChar c (basic rest) else none

/-- The rest of a string without escapes on one line. -/
def literal : List Char → Option (List Char × List Char)
  | [] => none
  | '\'' :: rest => some ([], rest)
  | c :: rest => if isInline c then consChar c (literal rest) else none

/-- Drops a line ending from the front of a text. -/
def dropNewline : List Char → List Char
  | '\n' :: rest => rest
  | '\r' :: '\n' :: rest => rest
  | text => text

/-- Whether blanks and then a line ending come next. -/
def blankToNewline (text : List Char) : Bool :=
  match text.dropWhile fun c => c == ' ' || c == '\t' with
  | '\n' :: _ => true
  | '\r' :: '\n' :: _ => true
  | _ => false

/-- A blank or line feed of a string over several lines, left out after a backslash at the end of
a line. -/
def consBlank (skipping : Bool) (c : Char) (found : Option (List Char × List Char)) :
    Option (List Char × List Char) :=
  if skipping then found else consChar c found

/-- The rest of a string with escapes over several lines. After a backslash at the end of a line
all blanks and line endings are skipped. -/
def multiBasic (skipping : Bool) : List Char → Option (List Char × List Char)
  | [] => none
  | ' ' :: rest => consBlank skipping ' ' (multiBasic skipping rest)
  | '\t' :: rest => consBlank skipping '\t' (multiBasic skipping rest)
  | '\n' :: rest => consBlank skipping '\n' (multiBasic skipping rest)
  | '\r' :: '\n' :: rest => consBlank skipping '\n' (multiBasic skipping rest)
  | '"' :: '"' :: '"' :: '"' :: '"' :: rest => some (['"', '"'], rest)
  | '"' :: '"' :: '"' :: '"' :: rest => some (['"'], rest)
  | '"' :: '"' :: '"' :: rest => some ([], rest)
  | '"' :: rest => consChar '"' (multiBasic false rest)
  | '\\' :: 'u' :: a :: b :: c :: d :: rest =>
    (scalar? [a, b, c, d]).bind fun x => consChar x (multiBasic false rest)
  | '\\' :: 'U' :: a :: b :: c :: d :: e :: f :: g :: h :: rest =>
    (scalar? [a, b, c, d, e, f, g, h]).bind fun x => consChar x (multiBasic false rest)
  | '\\' :: letter :: rest =>
    match shortEscape? letter with
    | some x => consChar x (multiBasic false rest)
    | none => if blankToNewline (letter :: rest) then multiBasic true rest else none
  | c :: rest => if isInline c && c != '\\' then consChar c (multiBasic false rest) else none

/-- The rest of a string without escapes over several lines. -/
def multiLiteral : List Char → Option (List Char × List Char)
  | [] => none
  | '\n' :: rest => consChar '\n' (multiLiteral rest)
  | '\r' :: '\n' :: rest => consChar '\n' (multiLiteral rest)
  | '\'' :: '\'' :: '\'' :: '\'' :: '\'' :: rest => some (['\'', '\''], rest)
  | '\'' :: '\'' :: '\'' :: '\'' :: rest => some (['\''], rest)
  | '\'' :: '\'' :: '\'' :: rest => some ([], rest)
  | c :: rest => if isInline c then consChar c (multiLiteral rest) else none

/-- A string on one line, with its quotes. -/
def singleLine : List Char → Option (List Char × List Char)
  | '"' :: rest => basic rest
  | '\'' :: rest => literal rest
  | _ => none

/-- A string in any of the four ways, with its quotes. -/
def anyString : List Char → Option (List Char × List Char)
  | '"' :: '"' :: '"' :: rest => multiBasic false (dropNewline rest)
  | '\'' :: '\'' :: '\'' :: rest => multiLiteral (dropNewline rest)
  | text => singleLine text

end LoxTokenizer.Toml.StringLiteral
