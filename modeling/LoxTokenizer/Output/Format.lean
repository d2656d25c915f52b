/-!
# Output formats

The three ways to list tokens, and the names under which a manifest and a command line ask for
them. A name is matched exactly, case included.

* **`OutputFormat.ofName?_eq_some_iff`**: a text names a format exactly if it is its name.
-/

namespace LoxTokenizer

/-- A way to list tokens. -/
inductive OutputFormat where
  /-- One token to a line, in words. -/
  | text
  /-- A JSON array of objects. -/
  | json
  /-- One token to a line, in columns with its place. -/
  | debug
  deriving DecidableEq, Repr

namespace OutputFormat

/-- The name of a format. -/
def name : OutputFormat → String
  | .text => "text"
  | .json => "json"
  | .debug => "debug"

/-- The format of a name. -/
def ofName? (name : String) : Option OutputFormat :=
  [OutputFormat.text, .json, .debug].find? fun format => format.name == name

theorem ofName?_eq_some_iff {name : String} {format : OutputFormat} :
    ofName? name = some format ↔ name = format.name := by
  constructor
  · intro h
    have found := List.find?_some h
    exact (beq_iff_eq.1 found).symm
  · rintro rfl
    cases format <;> decide

end OutputFormat

end LoxTokenizer
