import LoxTokenizer.Files.Disk
import LoxTokenizer.Output.Format

/-!
# Manifests

A manifest sets how tokens are listed and how the prompt looks. Everything in it may be left out;
what is left out has a default.
-/

namespace LoxTokenizer

/-- The name of a manifest's file. -/
def manifestFileName : String := "Lox.toml"

/-- What a manifest says, with the defaults for what it does not say, and the file it is from. -/
structure Manifest where
  format : OutputFormat
  trivia : Bool
  eof : Bool
  prompt : String
  path : Option Path
  deriving DecidableEq, Repr

/-- What a manifest says about the output, where its format is still a name. -/
structure OutputSection where
  format : Option String
  trivia : Bool
  eof : Bool
  deriving DecidableEq, Repr

/-- An output section in which nothing is said. -/
def OutputSection.default : OutputSection :=
  ⟨none, true, false⟩

/-- What a manifest says about the prompt. -/
structure PromptSection where
  prompt : String
  deriving DecidableEq, Repr

/-- A prompt section in which nothing is said. -/
def PromptSection.default : PromptSection :=
  ⟨"> "⟩

/-- The sections of a manifest. -/
structure Sections where
  output : OutputSection
  prompt : PromptSection
  deriving DecidableEq, Repr

/-- The sections of an empty manifest. -/
def Sections.default : Sections :=
  ⟨.default, .default⟩

/-- The manifest that holds where there is none. -/
def Manifest.default : Manifest :=
  ⟨.text, true, false, "> ", none⟩

end LoxTokenizer
