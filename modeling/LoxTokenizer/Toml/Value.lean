import LoxTokenizer.Number.Style

/-!
# Values of a TOML document

A document is a table, and so are many of its values. Each key and most values know the stretch
of the document in which they are written. While a document is read the places in it are counted
from its end, by the number of bytes that are still to come, since that is what a reader holds.

A table remembers how it came to be, because that decides what may still be added to it.
-/

namespace LoxTokenizer.Toml

/-- A stretch of a document: how many bytes are to come at its start and at its end. -/
structure Extent where
  before : Nat
  after : Nat
  deriving DecidableEq, Repr

namespace Extent

/-- The number of bytes of a stretch. -/
def bytes (e : Extent) : Nat :=
  e.before - e.after

/-- The stretch from the start of one up to the end of another. -/
def upTo (first last : Extent) : Extent :=
  ⟨first.before, last.after⟩

end Extent

/-- A key, without the quotes it may be written with. -/
structure Key where
  name : String
  extent : Extent
  deriving DecidableEq, Repr

/-- A floating-point number with its sign. -/
inductive Float where
  | nan
  | signed (negative : Bool) (magnitude : Binary64)
  deriving DecidableEq, Repr

namespace Float

/-- A floating-point number written out in full. -/
def render : Float → String
  | .nan => "NaN"
  | .signed negative magnitude =>
    (if negative then "-" else "") ++ NumberStyle.message.write magnitude

end Float

/-- How a table came to be. -/
inductive TableOrigin where
  /-- The document itself, or a table opened by a header. -/
  | header
  /-- A table on the way to one that a header opened. -/
  | implied
  /-- A table on the way to the last part of a dotted key. -/
  | dotted
  /-- A table written between braces. -/
  | inlined
  deriving DecidableEq, Repr

/-- Something and the stretch in which it is written, if it is written in one. -/
structure Located (α : Type) where
  value : α
  extent : Option Extent

/-- A value of a document. -/
inductive Value where
  | string (s : String)
  | integer (n : Int)
  | float (x : Float)
  | boolean (b : Bool)
  /-- A date, a time, or both. -/
  | date
  | array (items : List (Located Value))
  | table (origin : TableOrigin) (entries : List (Key × Located Value))
  /-- An array of tables, each opened by a header in double brackets. -/
  | tables (items : List (Located Value))

namespace Located

/-- A value whose stretch, if it has one, goes on up to the end of another value. -/
def extendOver (v last : Located Value) : Located Value :=
  match v.extent, last.extent with
  | some first, some stop => { v with extent := some (first.upTo stop) }
  | _, _ => v

/-- What a header opened, after a value was added to it. The stretch of a table goes from its
header up to the end of its last value, and the stretch of an array of tables up to the end of its
last table. -/
def sectionOver (v last : Located Value) : Located Value :=
  match v.value with
  | .tables items =>
    let grown := items.dropLast ++ (items.getLast?.map fun item => item.extendOver last).toList
    ({ v with value := .tables grown } : Located Value).extendOver last
  | _ => v.extendOver last

end Located

/-- The entries of a table in the order in which a reader of the document meets them. -/
abbrev Entries := List (Key × Located Value)

end LoxTokenizer.Toml
