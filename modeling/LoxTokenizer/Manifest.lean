import LoxTokenizer.Manifest.Shape

/-!
# Reading manifests

A manifest is read in three steps, and the first that fails gives the error: the text has to be a
well-formed document, the document has to have the shape of a manifest, and the name of the format
has to be the name of one.
-/

namespace LoxTokenizer

/-- Why there is no manifest. -/
inductive ManifestError where
  /-- The file cannot be read. -/
  | unreadable (cause : FileError)
  /-- The text is no well-formed document. -/
  | illFormed
  /-- The document, whose text is given, has not the shape of a manifest. -/
  | misshapen (document : String) (fault : ShapeFault)
  /-- The format has a name that no format has. -/
  | unknownFormat (name : String)
  deriving DecidableEq, Repr

namespace ManifestError

/-- The error in words. What makes a document ill-formed is not told. -/
def message : ManifestError → String
  | .unreadable cause => "failed to read " ++ manifestFileName ++ ": " ++ cause.message
  | .illFormed => "invalid " ++ manifestFileName
  | .misshapen document fault =>
    "invalid " ++ manifestFileName ++ ": " ++ fault.message document.toList
  | .unknownFormat name =>
    "invalid " ++ manifestFileName ++ ": [output] unknown format '" ++ name
      ++ "' (expected 'text', 'json' or 'debug')"

end ManifestError

/-- The format that a section asks for. -/
def OutputSection.format? (s : OutputSection) : Except ManifestError OutputFormat :=
  match s.format with
  | none => .ok .text
  | some name =>
    match OutputFormat.ofName? name with
    | some format => .ok format
    | none => .error (.unknownFormat name)

namespace Manifest

/-- The manifest of some sections. -/
def ofSections (s : Sections) : Except ManifestError Manifest :=
  s.output.format?.map fun format =>
    ⟨format, s.output.trivia, s.output.eof, s.prompt.prompt, none⟩

/-- The manifest of a document. -/
def ofEntries (text : String) (entries : Toml.Entries) : Except ManifestError Manifest :=
  match sections? entries with
  | .error fault => .error (.misshapen text fault)
  | .ok s => ofSections s

/-- The manifest that a text writes. -/
def parse (text : String) : Except ManifestError Manifest :=
  match Toml.Document.read? text.toList with
  | none => .error .illFormed
  | some entries => ofEntries text entries

/-- The manifest in a file. -/
def load (disk : Disk) (p : Path) : Except ManifestError Manifest :=
  match disk.readText p with
  | .error cause => .error (.unreadable cause)
  | .ok text => (parse text).map fun manifest => { manifest with path := some p }

end Manifest

end LoxTokenizer
