import LoxTokenizer.Log
import LoxTokenizer.Scan

/-!
# What a scan notes about its work

A scan notes the size of the source, then each token with the place of its first character, and,
if it reaches the end, how many tokens and lines there were. A source that is refused unread
leaves no record.
-/

namespace LoxTokenizer

namespace Token

/-- The record of a token: the place of its first character, and the token in words. -/
def logRecord (t : Token) : LogRecord :=
  ⟨.trace, t.span.start.render ++ " " ++ t.render⟩

end Token

namespace ScanRun

/-- The record of a run that reached the end of its source. -/
def summary (tokens : List Token) (place : Position) : LogRecord :=
  ⟨.debug, "scanned " ++ toString tokens.length ++ " tokens over " ++ toString place.line
    ++ " lines"⟩

/-- The records of a run over a source of so many bytes. -/
def logRecords (bytes : Nat) (run : ScanRun) : List LogRecord :=
  ⟨.debug, "scanning " ++ toString bytes ++ " bytes"⟩ :: run.tokens.map Token.logRecord
    ++ (match run.outcome with
        | .ok place => [summary run.tokens place]
        | .error _ => [])

end ScanRun

/-- The records of the scan of a source. -/
def scanLog (source : String) : List LogRecord :=
  let bytes := Text.byteLength source.toList
  match checkSourceLength bytes with
  | .error _ => []
  | .ok () => (ScanRun.of source).logRecords bytes

end LoxTokenizer
