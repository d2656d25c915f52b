import LoxTokenizer.Toml.Value

/-!
# Adding to a table

Three things add to the tables of a document: a key with a value, a header in brackets, and a
header in double brackets. Each may run through tables that are there already, and makes those
that are not. None may define anything twice, and there is no answer where one would:

* a dotted key runs only through tables that no header opened, and puts its value only into one
  that dotted keys made;
* a header opens a table only once; one that other headers only implied is opened where it is
  met, so it moves behind the entries that are there;
* a header in double brackets adds only to an array of such tables.

An array of tables stands for the last of them.
-/

namespace LoxTokenizer.Toml.Entries

/-- The value of a key. -/
def get? (entries : Entries) (name : String) : Option (Located Value) :=
  (entries.find? fun entry => entry.1.name == name).map fun entry => entry.2

/-- Replaces the value of a key that is there. -/
def replace (entries : Entries) (name : String) (value : Located Value) : Entries :=
  entries.map fun entry => if entry.1.name == name then (entry.1, value) else entry

/-- Takes a key out. -/
def remove (entries : Entries) (name : String) : Entries :=
  entries.filter fun entry => entry.1.name != name

/-- Changes the entries of the last table of an array. -/
def changeLast (change : Entries → Option Entries) :
    List (Located Value) → Option (List (Located Value))
  | [] => none
  | [⟨.table origin entries, extent⟩] =>
    (change entries).map fun changed => [⟨.table origin changed, extent⟩]
  | [_] => none
  | item :: items => (changeLast change items).map fun changed => item :: changed

/-- Changes the table under a key, or the last one of an array of tables. A table that is not
there is made, as an implied one. Any other value is in the way. -/
def changeUnder (key : Key) (change : Entries → Option Entries) (entries : Entries) :
    Option Entries :=
  match entries.get? key.name with
  | none =>
    (change []).map fun changed => entries ++ [(key, ⟨.table .implied changed, none⟩)]
  | some ⟨.table .inlined _, _⟩ => none
  | some ⟨.table origin inner, extent⟩ =>
    (change inner).map fun changed =>
      entries.replace key.name ⟨.table origin changed, extent⟩
  | some ⟨.tables items, extent⟩ =>
    (changeLast change items).map fun changed =>
      entries.replace key.name ⟨.tables changed, extent⟩
  | some _ => none

/-- Puts a value under a dotted key. -/
def put (value : Located Value) : List Key → Entries → Option Entries
  | [], _ => none
  | [key], entries =>
    match entries.get? key.name with
    | none => some (entries ++ [(key, value)])
    | some _ => none
  | key :: path, entries =>
    match entries.get? key.name with
    | none =>
      (put value path []).map fun made => entries ++ [(key, ⟨.table .dotted made, none⟩)]
    | some ⟨.table .dotted inner, extent⟩ =>
      (put value path inner).map fun changed =>
        entries.replace key.name ⟨.table .dotted changed, extent⟩
    | some ⟨.table .implied inner, extent⟩ =>
      if path.length = 1 then none
      else
        (put value path inner).map fun changed =>
          entries.replace key.name ⟨.table .implied changed, extent⟩
    | some ⟨.tables items, extent⟩ =>
      if path.length = 1 then none
      else
        (changeLast (put value path) items).map fun changed =>
          entries.replace key.name ⟨.tables changed, extent⟩
    | some _ => none

/-- Marks a value as the last one of the section under a key. -/
def growUnder (key : Key) (last : Located Value) (entries : Entries) : Entries :=
  entries.map fun entry =>
    if entry.1.name == key.name then (entry.1, entry.2.sectionOver last) else entry

/-- Puts a value under a dotted key of the section that a header names. -/
def putWithin (value : Located Value) (dotted : List Key) : List Key → Entries → Option Entries
  | [], entries => put value dotted entries
  | [key], entries => (changeUnder key (put value dotted) entries).map (growUnder key value)
  | key :: path, entries => changeUnder key (putWithin value dotted path) entries

/-- Opens the table under a key. -/
def openTable (extent : Extent) (key : Key) (entries : Entries) : Option Entries :=
  match entries.get? key.name with
  | none => some (entries ++ [(key, ⟨.table .header [], some extent⟩)])
  | some ⟨.table .implied inner, _⟩ =>
    some (entries.remove key.name ++ [(key, ⟨.table .header inner, some extent⟩)])
  | some _ => none

/-- Adds a table to the array of tables under a key. -/
def addTable (extent : Extent) (key : Key) (entries : Entries) : Option Entries :=
  let opened : Located Value := ⟨.table .header [], some extent⟩
  match entries.get? key.name with
  | none => some (entries ++ [(key, ⟨.tables [opened], some extent⟩)])
  | some ⟨.tables items, whole⟩ =>
    some (entries.replace key.name
      ⟨.tables (items ++ [opened]), some ((whole.getD extent).upTo extent)⟩)
  | some _ => none

/-- Does something to the last key of a header, in the table that the others name. -/
def atHeader (act : Key → Entries → Option Entries) : List Key → Entries → Option Entries
  | [], _ => none
  | [key], entries => act key entries
  | key :: path, entries => changeUnder key (atHeader act path) entries

end LoxTokenizer.Toml.Entries
