import LoxTokenizer.CommandLine.Flags
import LoxTokenizer.Manifest.Search

/-!
# Settings

What a run goes by: the manifest, and the flags over it. A flag for the format wins over the
manifest; white space and comments are shown if the manifest shows them and no flag hides them;
the end of the source is marked if either asks for it.

Which manifest governs a run is decided by the flags. A manifest that is named is the one. Else it
is searched for from the directory of the file, with links taken out if the file exists, or from
the working directory if there is no file. An error in that manifest is an error of the run.
-/

namespace LoxTokenizer

/-- What a run goes by. -/
structure Settings where
  format : OutputFormat
  trivia : Bool
  eof : Bool
  prompt : String
  quiet : Bool
  deriving DecidableEq, Repr

namespace Settings

/-- The flags over a manifest. -/
def merge (manifest : Manifest) (flags : Flags) : Settings where
  format := flags.format.getD manifest.format
  trivia := manifest.trivia && !flags.noTrivia
  eof := manifest.eof || flags.eof
  prompt := manifest.prompt
  quiet := flags.quiet

/-- The directory of a file, with links taken out of its path if it exists. A path without a
parent stands for something in the working directory. -/
def directoryOf (disk : Disk) (file : Path) : Path :=
  (((disk.canonical? file).getD file).parent?).getD (.ofText ".")

/-- The directory from which a manifest is searched for. -/
def searchStart (disk : Disk) (file : Option Path) : Path :=
  match file with
  | some file => directoryOf disk file
  | none => disk.workingDirectory

/-- The manifest that governs a run. -/
def governingManifest (disk : Disk) (flags : Flags) : Except ManifestError Manifest :=
  match flags.config with
  | some p => Manifest.load disk p
  | none => Manifest.discover disk (searchStart disk flags.file)

/-- What a run with some flags goes by. -/
def load (disk : Disk) (flags : Flags) : Except ManifestError Settings :=
  (governingManifest disk flags).map fun manifest => merge manifest flags

end Settings

end LoxTokenizer
