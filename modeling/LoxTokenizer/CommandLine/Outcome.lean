import LoxTokenizer.CommandLine.Settings
import LoxTokenizer.Output.Listing
import LoxTokenizer.Output.Sink
import LoxTokenizer.Report
import LoxTokenizer.Scan

/-!
# Outcomes of a run

A run ends with a status, and leaves what it wrote to its output and to its error output. Here are
also the steps that every kind of run takes: to scan a source, to list its tokens, and to report
its error, each by the settings.
-/

namespace LoxTokenizer

/-- How a run ends. -/
inductive ExitStatus where
  | success
  /-- The arguments are wrong. -/
  | usage
  /-- The source has a lexical error. -/
  | badData
  /-- Something cannot be read or written. -/
  | ioFailure
  /-- The manifest is wrong. -/
  | badConfig
  deriving DecidableEq, Repr

namespace ExitStatus

/-- The number that a process ends with. -/
def code : ExitStatus → Nat
  | .success => 0
  | .usage => 2
  | .badData => 65
  | .ioFailure => 74
  | .badConfig => 78

end ExitStatus

/-- What a run leaves. -/
structure Outcome where
  status : ExitStatus
  output : List UInt8
  errors : String
  deriving DecidableEq, Repr

/-- A line of the error output. -/
def errorLine (text : String) : String :=
  "error: " ++ text ++ "\n"

namespace Settings

/-- Scans a source. -/
def scan (s : Settings) (source : String) : Except ScanError (List Token) :=
  if s.eof then scanWithEof source else LoxTokenizer.scan source

/-- The pieces of the listing of some tokens. -/
def listing (s : Settings) (tokens : List Token) : List String :=
  Listing.pieces s.format (Listing.shown s.trivia tokens)

end Settings

/-- The report of a lexical error over its source. -/
def ScanError.report (e : ScanError) (file source : String) : String :=
  (Report.render? file source e.diagnostic).getD (e.diagnostic.render ++ "\n")

end LoxTokenizer
