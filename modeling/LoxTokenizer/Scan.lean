import LoxTokenizer.Scan.Error
import LoxTokenizer.Token.Basic
import LoxTokenizer.Token.Lexeme

/-!
# Scanning a source

A scan takes the lexeme at the front of the text again and again until nothing is left or no
lexeme starts there. Every character of a source that scans is in exactly one token, white space
and comments included, and the first error ends the scan.

`ScanRun` keeps the tokens found before the end, whatever the end was; `scan` and `scanWithEof`
are the two answers a caller asks for.

* **`ScanRun.startingAt_cons`**: a run is the first token and the run of the rest.
-/

namespace LoxTokenizer

/-- The most bytes that a source may have, so that every line, column and offset of it fits in
32 bits. -/
def maxSourceLength : Nat := 0xFFFFFFFE

/-- Refuses a source of too many bytes. -/
def checkSourceLength (bytes : Nat) : Except ScanError Unit :=
  if bytes ≤ maxSourceLength then .ok () else .error (.sourceTooLarge bytes)

/-- The token that a text starts with, when it starts with `c` at `place` and goes on with
`rest`, and how many characters follow its first. -/
def Token.first (place : Position) (c : Char) (rest : List Char) :
    Except ScanError (Token × Nat) :=
  match Lexeme.recognize c rest with
  | .error .unterminatedString =>
    .error (.unterminatedString ⟨place, place.after (c :: rest)⟩)
  | .error .unexpectedCharacter =>
    .error (.unexpectedCharacter c ⟨place, place.advance c⟩)
  | .ok (kind, more) =>
    let lexeme := c :: rest.take more
    let span : Span := ⟨place, place.after lexeme⟩
    match Literal.ofLexeme? kind lexeme with
    | some literal => .ok (⟨kind, String.ofList lexeme, literal, span⟩, more)
    | none => .error (.invalidNumber (String.ofList lexeme) span)

/-- The tokens that a scan found, and how it ended: with an error, or at the place after the last
character. -/
structure ScanRun where
  tokens : List Token
  outcome : Except ScanError Position

namespace ScanRun

/-- The run of a text that starts at a place. -/
def startingAt (place : Position) : List Char → ScanRun
  | [] => ⟨[], .ok place⟩
  | c :: rest =>
    match Token.first place c rest with
    | .error e => ⟨[], .error e⟩
    | .ok (token, more) =>
      let remaining := startingAt token.span.stop (rest.drop more)
      ⟨token :: remaining.tokens, remaining.outcome⟩
termination_by text => text.length
decreasing_by
  simp only [List.length_drop, List.length_cons]
  omega

/-- The run of a whole source. -/
def of (source : String) : ScanRun :=
  startingAt .start source.toList

theorem startingAt_nil (place : Position) : startingAt place [] = ⟨[], .ok place⟩ := by
  rw [startingAt]

theorem startingAt_cons {place : Position} {c : Char} {rest : List Char} {token : Token}
    {more : Nat} (h : Token.first place c rest = .ok (token, more)) :
    startingAt place (c :: rest) =
      ⟨token :: (startingAt token.span.stop (rest.drop more)).tokens,
        (startingAt token.span.stop (rest.drop more)).outcome⟩ := by
  rw [startingAt, h]

theorem startingAt_cons_error {place : Position} {c : Char} {rest : List Char} {e : ScanError}
    (h : Token.first place c rest = .error e) :
    startingAt place (c :: rest) = ⟨[], .error e⟩ := by
  rw [startingAt, h]

end ScanRun

/-- The tokens of a source. -/
def scan (source : String) : Except ScanError (List Token) :=
  match checkSourceLength (Text.byteLength source.toList) with
  | .error e => .error e
  | .ok () =>
    let run := ScanRun.of source
    run.outcome.map fun _ => run.tokens

/-- The tokens of a source and the marker of its end. -/
def scanWithEof (source : String) : Except ScanError (List Token) :=
  match checkSourceLength (Text.byteLength source.toList) with
  | .error e => .error e
  | .ok () =>
    let run := ScanRun.of source
    run.outcome.map fun place => run.tokens ++ [Token.eof place]

end LoxTokenizer
