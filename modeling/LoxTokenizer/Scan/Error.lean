import LoxTokenizer.Diagnostic
import LoxTokenizer.Text.Quoted

/-!
# Lexical errors

What can be wrong with a source, each with the stretch of text that is at fault. A source that is
too large is refused before it is read, so its error points nowhere but to the start.
-/

namespace LoxTokenizer

/-- Why a source has no tokens. -/
inductive ScanError where
  /-- A quote without a closing one; the span runs to the end of the source. -/
  | unterminatedString (span : Span)
  /-- A character that starts no token. -/
  | unexpectedCharacter (character : Char) (span : Span)
  /-- A lexeme of digits that is no numeral. -/
  | invalidNumber (lexeme : String) (span : Span)
  /-- A source of more bytes than are scanned. -/
  | sourceTooLarge (bytes : Nat)
  deriving DecidableEq, Repr

namespace ScanError

/-- The stretch of text at fault. -/
def span : ScanError → Span
  | .unterminatedString span => span
  | .unexpectedCharacter _ span => span
  | .invalidNumber _ span => span
  | .sourceTooLarge _ => ⟨.start, .start⟩

/-- Where the stretch of text at fault starts. -/
def position (e : ScanError) : Position :=
  e.span.start

/-- The error in words. -/
def message : ScanError → String
  | .unterminatedString span =>
    "unterminated string starting at " ++ span.start.render
  | .unexpectedCharacter character span =>
    "unexpected character " ++ String.ofList (Text.quoteChar character)
      ++ " at " ++ span.start.render
  | .invalidNumber lexeme span =>
    "invalid number literal '" ++ lexeme ++ "' at " ++ span.start.render
  | .sourceTooLarge bytes =>
    "source of " ++ toString bytes ++ " bytes is too large to scan (limit is 4 GiB)"

/-- How the source could be mended, where that can be guessed. -/
def suggestion : ScanError → Option String
  | .unterminatedString _ => some "add a closing '\"' to end the string"
  | .unexpectedCharacter '&' _ => some "use 'and' for logical conjunction"
  | .unexpectedCharacter '|' _ => some "use 'or' for logical disjunction"
  | .unexpectedCharacter '\'' _ => some "strings are delimited with double quotes"
  | _ => none

/-- The error as a diagnostic. It has a span unless the source was refused unread. -/
def diagnostic (e : ScanError) : Diagnostic where
  message := e.message
  span :=
    match e with
    | .sourceTooLarge _ => none
    | _ => some e.span
  suggestion := e.suggestion

end ScanError

end LoxTokenizer
