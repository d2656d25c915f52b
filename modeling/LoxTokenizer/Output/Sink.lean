/-!
# An output handle that may give out

A handle takes bytes until its room is used up and then fails every write of at least one byte;
what of a failing write still fits is taken. It can also fail a flush. After a failure the handle
keeps what it took.

* **`Sink.write_of_fits`**: a write that fits is taken whole.
* **`Sink.write_of_not_fits`**: one that does not is taken as far as there is room, and fails.
-/

namespace LoxTokenizer

/-- The bytes of a text in UTF-8. -/
def utf8 (text : String) : List UInt8 :=
  text.toUTF8.data.toList

/-- An output handle: what it took, how many bytes in all it takes, and which flush fails. -/
structure Sink where
  taken : Array UInt8
  capacity : Option Nat
  flushes : Nat
  badFlush : Option Nat
  deriving DecidableEq, Repr

namespace Sink

/-- The bytes that a handle took, in order. -/
def bytes (s : Sink) : List UInt8 :=
  s.taken.toList

/-- A handle that never fails. -/
def unlimited : Sink :=
  ⟨#[], none, 0, none⟩

/-- A handle that takes so many bytes, and fails the flush of that number, counted from one. -/
def limited (capacity badFlush : Option Nat) : Sink :=
  ⟨#[], capacity, 0, badFlush⟩

/-- Whether so many bytes fit. -/
def fits (s : Sink) (bytes : Nat) : Bool :=
  match s.capacity with
  | none => true
  | some capacity => bytes == 0 || s.taken.size + bytes ≤ capacity

/-- The part of some bytes that there is room for. -/
def room (s : Sink) (bytes : List UInt8) : List UInt8 :=
  match s.capacity with
  | none => bytes
  | some capacity => bytes.take (capacity - s.taken.size)

/-- Writes a text. The answer is the handle afterwards, as an error if the write failed. -/
def write (s : Sink) (text : String) : Except Sink Sink :=
  let bytes := utf8 text
  if s.fits bytes.length then .ok { s with taken := s.taken ++ bytes }
  else .error { s with taken := s.taken ++ s.room bytes }

/-- Writes texts one after the other, up to the first failure. -/
def writeAll (s : Sink) (texts : List String) : Except Sink Sink :=
  texts.foldlM write s

/-- Flushes the handle. The answer is the handle afterwards, as an error if the flush failed. -/
def flush (s : Sink) : Except Sink Sink :=
  let flushed := { s with flushes := s.flushes + 1 }
  if s.badFlush = some flushed.flushes then .error flushed else .ok flushed

/-- The words for a failure of the handle. -/
def failure : String := "closed"

/-! ## One write -/

theorem write_of_fits {s : Sink} {text : String} (h : s.fits (utf8 text).length = true) :
    s.write text = .ok { s with taken := s.taken ++ utf8 text } := by
  simp [write, h]

theorem write_of_not_fits {s : Sink} {text : String} (h : s.fits (utf8 text).length = false) :
    s.write text = .error { s with taken := s.taken ++ s.room (utf8 text) } := by
  simp [write, h]

end Sink

end LoxTokenizer
