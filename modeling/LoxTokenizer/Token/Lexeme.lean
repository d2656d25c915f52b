import LoxTokenizer.CharClass
import LoxTokenizer.Token.Kind

/-!
# The lexeme at the front of a text

`recognize c rest` decides, for a text that starts with `c` and goes on with `rest`, of what kind
its first lexeme is and how many characters of `rest` belong to it. It takes as many as it can:
a numeral takes its digits, and a point only if a digit follows the point; a word takes every
letter, digit and underscore before it is looked up among the reserved words; two slashes take
the rest of the line; a quote takes all up to the next quote, line feeds included.
-/

namespace LoxTokenizer.Lexeme

open CharClass

/-- Why a text starts with no lexeme. -/
inductive Fault where
  /-- A quote that no other quote follows. -/
  | unterminatedString
  /-- A character that no lexeme starts with. -/
  | unexpectedCharacter
  deriving DecidableEq, Repr

/-- How many characters at the front of a text meet a condition. -/
def runLength (p : Char → Bool) (text : List Char) : Nat :=
  (text.takeWhile p).length

/-- An operator that an equals sign may complete. -/
def withEqual (single double : TokenKind) (rest : List Char) : TokenKind × Nat :=
  if rest.head? = some '=' then (double, 1) else (single, 0)

/-- A slash alone, or with a second one the start of a comment up to the end of the line. -/
def slashOrComment : List Char → TokenKind × Nat
  | '/' :: body => (.comment, runLength (· != '\n') body + 1)
  | _ => (.slash, 0)

/-- The rest of a string after its opening quote, which must hold a closing one. -/
def stringBody (rest : List Char) : Except Fault (TokenKind × Nat) :=
  let body := runLength (· != '"') rest
  if body < rest.length then .ok (.string, body + 1) else .error .unterminatedString

/-- How many characters after its first digit belong to a numeral. -/
def numeralLength (rest : List Char) : Nat :=
  let whole := runLength isDigit rest
  match rest.drop whole with
  | '.' :: digit :: more =>
    if isDigit digit then whole + 2 + runLength isDigit more else whole
  | _ => whole

/-- The kind of a word: a reserved one or an identifier. -/
def wordKind (word : List Char) : TokenKind :=
  (TokenKind.keyword? (String.ofList word)).getD .identifier

/-- A word, with its first character. -/
def word (c : Char) (rest : List Char) : TokenKind × Nat :=
  (wordKind (c :: rest.takeWhile isWordPart), runLength isWordPart rest)

/-- The kind of the lexeme that a text starts with, and how many characters follow its first. -/
def recognize (c : Char) (rest : List Char) : Except Fault (TokenKind × Nat) :=
  match c with
  | '!' => .ok (withEqual .bang .bangEqual rest)
  | '=' => .ok (withEqual .equal .equalEqual rest)
  | '<' => .ok (withEqual .less .lessEqual rest)
  | '>' => .ok (withEqual .greater .greaterEqual rest)
  | '/' => .ok (slashOrComment rest)
  | '"' => stringBody rest
  | c =>
    if isDigit c then .ok (.number, numeralLength rest)
    else if isWordStart c then .ok (word c rest)
    else
      match TokenKind.punctuation? c with
      | some kind => .ok (kind, 0)
      | none => .error .unexpectedCharacter

end LoxTokenizer.Lexeme
