import LoxTokenizer.CommandLine.FileRun
import LoxTokenizer.CommandLine.Help
import LoxTokenizer.CommandLine.Prompt

/-!
# The whole program

The arguments are read, then the manifest that governs the run, and then the file, or the lines of
the input at the prompt. What ends the program early leaves nothing on the output but the help or
the version that was asked for. What is said about wrong arguments is left to the outer layer.
-/

namespace LoxTokenizer.CommandLine

/-- The outcome of arguments that do not lead to a run. -/
def interrupted : Interruption → Outcome
  | .error _ => ⟨.usage, [], ""⟩
  | .help long => ⟨.success, utf8 (helpText long), ""⟩
  | .version => ⟨.success, utf8 versionText, ""⟩

/-- The outcome of a run with some flags. -/
def runWith (disk : Disk) (input : List UInt8) (flags : Flags) : Outcome :=
  match Settings.load disk flags with
  | .error e => ⟨.badConfig, [], errorLine e.message⟩
  | .ok settings =>
    match flags.file with
    | some file => FileRun.run disk settings .unlimited file
    | none => (Prompt.run settings .unlimited input).toOutcome

/-- The outcome of the program. -/
def run (disk : Disk) (input : List UInt8) (arguments : List String) : Outcome :=
  match Flags.parse arguments with
  | .error interruption => interrupted interruption
  | .ok flags => runWith disk input flags

end LoxTokenizer.CommandLine
