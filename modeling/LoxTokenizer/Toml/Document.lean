import LoxTokenizer.Text.Bytes
import LoxTokenizer.Toml.Scalar
import LoxTokenizer.Toml.StringLiteral
import LoxTokenizer.Toml.Table

/-!
# Reading a TOML document

A document is a sequence of lines: each is blank, or holds a key with a value, a header in
brackets, or a header in double brackets, and may end with a comment. A value between brackets may
go over several lines, one between braces may not.

Values nest through `maxNesting` levels of brackets and braces at the most, and a key has fewer
parts than `maxKeyParts`; this also bounds the work. A document that breaks any rule is not
read at all, and nothing is said about where.
-/

namespace LoxTokenizer.Toml

/-- How many levels of brackets and braces a value may have. -/
def maxNesting : Nat := 79

/-- The first number of parts that a key may not have. -/
def maxKeyParts : Nat := 80

namespace Document

/-! ## Blanks, comments and line endings -/

/-- Drops spaces and tabs. -/
def dropBlanks (text : List Char) : List Char :=
  text.dropWhile fun c => c == ' ' || c == '\t'

/-- Drops a comment, which goes up to the end of its line. -/
def dropComment : List Char → List Char
  | '#' :: rest => rest.dropWhile StringLiteral.isInline
  | text => text

/-- Drops a line ending. The end of the document is one. -/
def dropLineEnd? : List Char → Option (List Char)
  | [] => some []
  | '\n' :: rest => some rest
  | '\r' :: '\n' :: rest => some rest
  | _ => none

/-- Drops what may stand between a statement and the next line: blanks and a comment. -/
def dropLineTail? (text : List Char) : Option (List Char) :=
  dropLineEnd? (dropComment (dropBlanks text))

/-- Drops blanks, comments and line endings. -/
def dropLayout : List Char → List Char
  | ' ' :: rest => dropLayout rest
  | '\t' :: rest => dropLayout rest
  | '\n' :: rest => dropLayout rest
  | '\r' :: '\n' :: rest => dropLayout rest
  | '#' :: rest => dropLayoutComment rest
  | text => text
where
  /-- Drops the rest of a comment and the layout after it. -/
  dropLayoutComment : List Char → List Char
    | [] => []
    | '\n' :: rest => dropLayout rest
    | '\r' :: '\n' :: rest => dropLayout rest
    | c :: rest => if StringLiteral.isInline c then dropLayoutComment rest else c :: rest

/-- The stretch between two places. -/
def extent (start stop : List Char) : Extent :=
  ⟨Text.byteLength start, Text.byteLength stop⟩

/-! ## Keys -/

/-- Whether a character may stand in a key without quotes. -/
def isBareKeyChar (c : Char) : Bool :=
  c.isAlphanum || c == '_' || c == '-'

/-- One part of a key. -/
def keyPart? (text : List Char) : Option (Key × List Char) :=
  match text with
  | '"' :: _ | '\'' :: _ =>
    (StringLiteral.singleLine text).map fun (name, rest) =>
      (⟨String.ofList name, extent text rest⟩, rest)
  | _ =>
    let name := text.takeWhile isBareKeyChar
    let rest := text.dropWhile isBareKeyChar
    if name.isEmpty then none else some (⟨String.ofList name, extent text rest⟩, rest)

/-- At most so many parts of a key, with points between them and blanks around each. -/
def keyParts? : Nat → List Char → Option (List Key × List Char)
  | 0, _ => none
  | parts + 1, text => do
    let (key, rest) ← keyPart? (dropBlanks text)
    match dropBlanks rest with
    | '.' :: more =>
      let (path, rest) ← keyParts? parts more
      some (key :: path, rest)
    | rest => some ([key], rest)

/-- A key with its parts. -/
def key? (text : List Char) : Option (List Key × List Char) :=
  keyParts? (maxKeyParts - 1) text

/-! ## Values -/

/-- The items of an array after its opening bracket, given a reader of one item. A comma may
follow the last item. The first argument bounds the number of items. -/
def items? (item? : List Char → Option (Located Value × List Char)) :
    Nat → List Char → Option (List (Located Value) × List Char)
  | 0, _ => none
  | bound + 1, text =>
    match dropLayout text with
    | ']' :: rest => some ([], rest)
    | text => do
      let (item, rest) ← item? text
      match dropLayout rest with
      | ']' :: rest => some ([item], rest)
      | ',' :: rest =>
        let (items, rest) ← items? item? bound rest
        some (item :: items, rest)
      | _ => none

/-- A key, an equals sign and a value, given a reader of the value. -/
def keyValue? (value? : List Char → Option (Located Value × List Char)) (text : List Char) :
    Option ((List Key × Located Value) × List Char) := do
  let (path, rest) ← key? text
  match rest with
  | '=' :: rest =>
    let (value, rest) ← value? (dropBlanks rest)
    some ((path, value), rest)
  | _ => none

/-- The entries of an inline table from its first key on, given a reader of one entry. No comma
follows the last one. The first argument bounds the number of entries. -/
def inlineEntries? (pair? : List Char → Option ((List Key × Located Value) × List Char)) :
    Nat → List Char → Option (List (List Key × Located Value) × List Char)
  | 0, _ => none
  | bound + 1, text => do
    let (entry, rest) ← pair? text
    match dropBlanks rest with
    | '}' :: rest => some ([entry], rest)
    | ',' :: rest =>
      let (entries, rest) ← inlineEntries? pair? bound rest
      some (entry :: entries, rest)
    | _ => none

/-- An inline table after its opening brace, given a reader of one value. -/
def inlineTable? (value? : List Char → Option (Located Value × List Char)) (text : List Char) :
    Option (Value × List Char) :=
  match dropBlanks text with
  | '}' :: rest => some (.table .inlined [], rest)
  | text => do
    let (pairs, rest) ← inlineEntries? (keyValue? value?) text.length text
    let entries ← pairs.foldlM (fun entries pair => Entries.put pair.2 pair.1 entries) []
    some (.table .inlined entries, rest)

/-- A value with at most so many levels of brackets and braces. -/
def value? : Nat → List Char → Option (Located Value × List Char)
  | nesting, text => do
    let (value, rest) ← match text with
      | '"' :: _ | '\'' :: _ =>
        (StringLiteral.anyString text).map fun (s, rest) => (Value.string (String.ofList s), rest)
      | '[' :: inner =>
        match nesting with
        | 0 => none
        | nesting + 1 =>
          (items? (value? nesting) (inner.length + 1) inner).map fun (items, rest) =>
            (Value.array items, rest)
      | '{' :: inner =>
        match nesting with
        | 0 => none
        | nesting + 1 => inlineTable? (value? nesting) inner
      | _ => Scalar.read? text
    some (⟨value, some (extent text rest)⟩, rest)

/-! ## Statements -/

/-- A statement of a document. -/
inductive Statement where
  | keyValue (path : List Key) (value : Located Value)
  | header (path : List Key) (extent : Extent)
  | arrayHeader (path : List Key) (extent : Extent)

/-- A statement at the front of a text. -/
def statement? (text : List Char) : Option (Statement × List Char) :=
  match text with
  | '[' :: '[' :: inner => do
    let (path, rest) ← key? inner
    match rest with
    | ']' :: ']' :: rest => some (.arrayHeader path (extent text rest), rest)
    | _ => none
  | '[' :: inner => do
    let (path, rest) ← key? inner
    match rest with
    | ']' :: rest => some (.header path (extent text rest), rest)
    | _ => none
  | _ => (keyValue? (value? maxNesting) text).map fun (pair, rest) =>
    (.keyValue pair.1 pair.2, rest)

/-- The statements of a document, line by line. The first argument bounds the number of lines. -/
def statements? : Nat → List Char → Option (List Statement)
  | 0, text => if text.isEmpty then some [] else none
  | bound + 1, text =>
    match dropBlanks text with
    | [] => some []
    | text =>
      match dropLineTail? text with
      | some rest => statements? bound rest
      | none => do
        let (statement, rest) ← statement? text
        let rest ← dropLineTail? rest
        let more ← statements? bound rest
        some (statement :: more)

/-- A document while it is put together: its entries, and the table that keys go to. -/
structure Draft where
  entries : Entries
  current : List Key

/-- Adds a statement to a document. -/
def Draft.add (draft : Draft) : Statement → Option Draft
  | .keyValue path value =>
    (Entries.putWithin value path draft.current draft.entries).map fun entries =>
      { draft with entries := entries }
  | .header path extent =>
    (Entries.atHeader (Entries.openTable extent) path draft.entries).map fun entries =>
      ⟨entries, path⟩
  | .arrayHeader path extent =>
    (Entries.atHeader (Entries.addTable extent) path draft.entries).map fun entries =>
      ⟨entries, path⟩

/-- Drops a byte-order mark from the front of a document. -/
def dropMark : List Char → List Char
  | '\ufeff' :: rest => rest
  | text => text

/-- The entries of a document, if it is well-formed. -/
def read? (text : List Char) : Option Entries := do
  let text := dropMark text
  let statements ← statements? (text.length + 1) text
  let draft ← statements.foldlM Draft.add ⟨[], []⟩
  some draft.entries

end Document

end LoxTokenizer.Toml
