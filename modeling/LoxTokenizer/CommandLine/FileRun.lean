import LoxTokenizer.CommandLine.Outcome

/-!
# Running over a file

A file is read, scanned and listed, and a summary says how many tokens there are, those that are
not shown and the mark of the end included. The first step that fails ends the run: nothing has
been written if it is the reading or the scanning.
-/

namespace LoxTokenizer.FileRun

/-- The summary of a run over a file. -/
def summary (file : Path) (tokens : List Token) : String :=
  "Scanned " ++ file.text ++ " (" ++ toString tokens.length ++ " tokens)\n"

/-- Lists the tokens of a file. -/
def list (settings : Settings) (output : Sink) (file : Path) (tokens : List Token) : Outcome :=
  match output.writeAll (settings.listing tokens) with
  | .error full =>
    ⟨.ioFailure, full.bytes, errorLine ("could not write tokens: " ++ Sink.failure)⟩
  | .ok written =>
    ⟨.success, written.bytes, if settings.quiet then "" else summary file tokens⟩

/-- Runs over a file. -/
def run (disk : Disk) (settings : Settings) (output : Sink) (file : Path) : Outcome :=
  match disk.readText file with
  | .error cause =>
    ⟨.ioFailure, output.bytes,
      errorLine ("could not read '" ++ file.text ++ "': " ++ cause.message)⟩
  | .ok source =>
    match settings.scan source with
    | .error e => ⟨.badData, output.bytes, e.report (file.fileName?.getD "") source⟩
    | .ok tokens => list settings output file tokens

end LoxTokenizer.FileRun
