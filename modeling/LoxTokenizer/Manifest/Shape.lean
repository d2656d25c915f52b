import LoxTokenizer.Manifest.Basic
import LoxTokenizer.Text.Bytes
import LoxTokenizer.Text.Quoted
import LoxTokenizer.Toml.Document

/-!
# The shape of a manifest

A well-formed document is a manifest if it has no sections but `output` and `prompt`, these have
no keys but their own, and each key has a value of its kind. A section may also be an array, which
gives its values in order; values after those of the section are not looked at. The entries are
checked in the order of the document, and the first fault is the one that is told, with the place
it is at.

* **`ShapeFault`**: what is wrong and in which stretch of the document.
* **`sections?`**: the sections of a document, or its first fault.
-/

namespace LoxTokenizer

open Toml (Entries Extent Key Located Value)

/-- What is wrong with an entry. -/
inductive ShapeReason where
  /-- A key that is not among the ones expected. -/
  | unknownField (name : String) (expected : List String)
  /-- A value of a kind other than the one expected. -/
  | invalidType (found expected : String)
  deriving DecidableEq, Repr

/-- What is wrong with the shape of a document, and where. -/
structure ShapeFault where
  reason : ShapeReason
  extent : Extent
  deriving DecidableEq, Repr

/-! ## Kinds of value -/

/-- A value in words, as far as a message about its kind needs it. -/
def describe : Value → String
  | .string s => "string " ++ Text.quoted s
  | .integer n => "integer `" ++ toString n ++ "`"
  | .float x => "floating point `" ++ x.render ++ "`"
  | .boolean b => "boolean `" ++ (if b then "true" else "false") ++ "`"
  | .array _ | .tables _ => "sequence"
  | .date | .table _ _ => "map"

/-- A fault of a value that has not the kind expected. The place of a value that is written
nowhere is the place given for it. -/
def wrongType {α : Type} (place : Extent) (v : Located Value) (expected : String) :
    Except ShapeFault α :=
  .error ⟨.invalidType (describe v.value) expected, v.extent.getD place⟩

/-- The text of a value. -/
def asText (place : Extent) (v : Located Value) : Except ShapeFault String :=
  match v.value with
  | .string s => .ok s
  | _ => wrongType place v "a string"

/-- The truth value of a value. -/
def asBoolean (place : Extent) (v : Located Value) : Except ShapeFault Bool :=
  match v.value with
  | .boolean b => .ok b
  | _ => wrongType place v "a boolean"

/-! ## Sections -/

/-- How a section is read: its name in messages, its keys, and what each of them sets. -/
structure SectionShape (σ : Type) where
  title : String
  keys : List String
  set : String → Option (Extent → Located Value → σ → Except ShapeFault σ)

/-- The key under which a date shows where a section is expected. -/
def dateKey : String := "$__toml_private_datetime"

namespace SectionShape

/-- Reads an entry of a section. -/
def entry {σ : Type} (shape : SectionShape σ) (read : σ) (e : Key × Located Value) :
    Except ShapeFault σ :=
  match shape.set e.1.name with
  | some set => set e.1.extent e.2 read
  | none => .error ⟨.unknownField e.1.name shape.keys, e.1.extent⟩

/-- Reads the items of a section that is an array, each as the value of the next key. -/
def items {σ : Type} (shape : SectionShape σ) (place : Extent) (read : σ)
    (values : List (Located Value)) : Except ShapeFault σ :=
  (shape.keys.zip values).foldlM
    (fun read (name, v) =>
      match shape.set name with
      | some set => set place v read
      | none => .ok read)
    read

/-- Reads a section. -/
def read {σ : Type} (shape : SectionShape σ) (default : σ) (place : Extent) (v : Located Value) :
    Except ShapeFault σ :=
  match v.value with
  | .table _ entries => entries.foldlM shape.entry default
  | .array values | .tables values => shape.items (v.extent.getD place) default values
  | .date => .error ⟨.unknownField dateKey shape.keys, v.extent.getD place⟩
  | _ => wrongType place v ("struct " ++ shape.title)

end SectionShape

/-- The output section: the name of a format, and two truth values. -/
def outputShape : SectionShape OutputSection where
  title := "RawOutput"
  keys := ["format", "trivia", "eof"]
  set
    | "format" => some fun place v s => (asText place v).map fun x => { s with format := some x }
    | "trivia" => some fun place v s => (asBoolean place v).map fun x => { s with trivia := x }
    | "eof" => some fun place v s => (asBoolean place v).map fun x => { s with eof := x }
    | _ => none

/-- The prompt section: the prompt. -/
def promptShape : SectionShape PromptSection where
  title := "RawPrompt"
  keys := ["prompt"]
  set
    | "prompt" => some fun place v s => (asText place v).map fun x => { s with prompt := x }
    | _ => none

/-- The names of the sections. -/
def sectionNames : List String := ["output", "prompt"]

/-- Reads an entry of a document. -/
def sectionEntry (read : Sections) (e : Key × Located Value) : Except ShapeFault Sections :=
  match e.1.name with
  | "output" => (outputShape.read .default e.1.extent e.2).map fun s => { read with output := s }
  | "prompt" => (promptShape.read .default e.1.extent e.2).map fun s => { read with prompt := s }
  | name => .error ⟨.unknownField name sectionNames, e.1.extent⟩

/-- The sections of a document, or its first fault. -/
def sections? (entries : Entries) : Except ShapeFault Sections :=
  entries.foldlM sectionEntry .default

/-! ## Messages -/

namespace ShapeReason

/-- A name between backquotes. -/
def backquoted (name : String) : String := "`" ++ name ++ "`"

/-- Some names in words. -/
def oneOf : List String → String
  | [] => "there are no fields"
  | [name] => backquoted name
  | [first, second] => backquoted first ++ " or " ++ backquoted second
  | names => "one of " ++ String.intercalate ", " (names.map backquoted)

/-- A reason in words. -/
def message : ShapeReason → String
  | .unknownField name expected =>
    "unknown field " ++ backquoted name ++ ", expected " ++ oneOf expected
  | .invalidType found expected => "invalid type: " ++ found ++ ", expected " ++ expected

end ShapeReason

namespace ShapeFault

/-- A fault in words: its place, the line it is on with the stretch marked, and the reason. -/
def message (document : List Char) (fault : ShapeFault) : String :=
  let start := Text.byteLength document - fault.extent.before
  let parts := (Text.splitAt? document start).getD ([], document)
  let lineStart := (parts.1.reverse.takeWhile (· != '\n')).reverse
  let line := lineStart ++ parts.2.takeWhile (· != '\n')
  let number := toString (parts.1.count '\n' + 1)
  let column := lineStart.length + 1
  let marks := max 1 (min fault.extent.bytes (Text.byteLength line - lineStart.length))
  let spaces := fun n => String.ofList (List.replicate n ' ')
  let gutter := spaces (number.length + 1) ++ "|"
  "TOML parse error at line " ++ number ++ ", column " ++ toString column ++ "\n"
    ++ gutter ++ "\n"
    ++ number ++ " | " ++ String.ofList line ++ "\n"
    ++ gutter ++ spaces column ++ String.ofList (List.replicate marks '^') ++ "\n"
    ++ fault.reason.message ++ "\n"

end ShapeFault

end LoxTokenizer
