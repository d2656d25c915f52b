import LoxTokenizer.CommandLine.Outcome

/-!
# The prompt

The prompt is written, a line is read, and the line is answered with the listing of its tokens or
with a report of its error; and so on until the input ends, when a line feed is written. A lexical
error does not end the run. A line that is no text does, and so does an output that gives out: no
line is read whose prompt could not be written.

* **`Prompt.lines_flatten`**: the lines of an input are the input, cut after each line feed.
-/

namespace LoxTokenizer.Prompt

/-- The byte that ends a line. -/
def lineFeed : UInt8 := 10

/-- Puts a byte in front of the first line. -/
def consLine (b : UInt8) : List (List UInt8) → List (List UInt8)
  | [] => [[b]]
  | line :: lines => (b :: line) :: lines

/-- The lines of an input, each with the line feed that ends it. The last may have none. -/
def lines : List UInt8 → List (List UInt8)
  | [] => []
  | b :: rest => if b = lineFeed then [b] :: lines rest else consLine b (lines rest)

theorem flatten_consLine (b : UInt8) (rest : List (List UInt8)) :
    (consLine b rest).flatten = b :: rest.flatten := by
  cases rest <;> rfl

theorem lines_flatten (input : List UInt8) : (lines input).flatten = input := by
  induction input with
  | nil => rfl
  | cons b rest ih =>
    unfold lines
    split
    · simp [ih]
    · rw [flatten_consLine, ih]

/-- A line without the line feeds and carriage returns at its end. -/
def trimEnd (line : String) : String :=
  String.ofList
    ((line.toList.reverse.dropWhile fun c => c == '\n' || c == '\r').reverse)

/-- The name that reports give to the input. -/
def inputName : String := "<stdin>"

/-- What a line is answered with. -/
inductive Reply where
  /-- The pieces of the listing of its tokens. -/
  | listing (pieces : List String)
  /-- The report of its lexical error. -/
  | report (text : String)
  /-- The line is no text. -/
  | unreadable
  deriving DecidableEq, Repr

/-- The answer to a line, which depends on nothing but the line and the settings. -/
def reply (settings : Settings) (line : List UInt8) : Reply :=
  match decodeUtf8? line with
  | none => .unreadable
  | some text =>
    let source := trimEnd text
    match settings.scan source with
    | .ok tokens => .listing (settings.listing tokens)
    | .error e => .report (e.report inputName source)

/-- The error line of an output that gave out under the prompt or the last line feed. -/
def promptFailure : String :=
  errorLine ("could not write prompt: " ++ Sink.failure)

/-- The error line of an output that gave out under a listing. -/
def listingFailure : String :=
  errorLine ("could not write tokens: " ++ Sink.failure)

/-- The error line of a line that is no text. -/
def inputFailure : String :=
  errorLine ("could not read input: " ++ FileError.notText.message)

/-- Writes the prompt and flushes the output. -/
def ask (settings : Settings) (output : Sink) : Except Sink Sink :=
  (output.write settings.prompt).bind Sink.flush

/-- The outcome of a run at the prompt, and the number of bytes read. -/
structure PromptOutcome extends Outcome where
  consumed : Nat
  deriving DecidableEq, Repr

/-- A run over the lines that are left, from what has been written and read so far. -/
def runLines (settings : Settings) (output : Sink) (errors : String) (consumed : Nat) :
    List (List UInt8) → PromptOutcome
  | [] =>
    match (ask settings output).bind fun output => output.write "\n" with
    | .error full => ⟨⟨.ioFailure, full.bytes, errors ++ promptFailure⟩, consumed⟩
    | .ok output => ⟨⟨.success, output.bytes, errors⟩, consumed⟩
  | line :: rest =>
    match ask settings output with
    | .error full => ⟨⟨.ioFailure, full.bytes, errors ++ promptFailure⟩, consumed⟩
    | .ok output =>
      let consumed := consumed + line.length
      match reply settings line with
      | .unreadable => ⟨⟨.ioFailure, output.bytes, errors ++ inputFailure⟩, consumed⟩
      | .report text => runLines settings output (errors ++ text) consumed rest
      | .listing pieces =>
        match output.writeAll pieces with
        | .error full => ⟨⟨.ioFailure, full.bytes, errors ++ listingFailure⟩, consumed⟩
        | .ok output => runLines settings output errors consumed rest

/-- A run at the prompt over an input. -/
def run (settings : Settings) (output : Sink) (input : List UInt8) : PromptOutcome :=
  runLines settings output "" 0 (lines input)

end LoxTokenizer.Prompt
