import LoxTokenizer.Position

/-!
# A cursor over a text

A cursor reads a text character by character and counts lines, columns and bytes as it goes. It
can look one or two characters ahead, take a character only if it is the expected one, take a run
of characters that meet a condition, and cut out of the text what it has read.

Whether it is at the end is decided by the bytes it has counted, and not by the characters that
are left; a character with code point zero is a character like any other.
-/

namespace LoxTokenizer

/-- A text, what of it is still unread, and the place between the two. -/
structure Cursor where
  source : List Char
  rest : List Char
  place : Position
  deriving DecidableEq, Repr

namespace Cursor

/-- The cursor before the first character. -/
def of (source : List Char) : Cursor :=
  ⟨source, source, .start⟩

/-- The next character. -/
def peek? (k : Cursor) : Option Char :=
  k.rest.head?

/-- The character after the next one. -/
def peekNext? (k : Cursor) : Option Char :=
  k.rest[1]?

/-- The cursor after the next character, if there is one. -/
def skip (k : Cursor) : Cursor :=
  match k.rest with
  | [] => k
  | c :: rest => { k with rest := rest, place := k.place.advance c }

/-- Takes the next character. -/
def advance (k : Cursor) : Option Char × Cursor :=
  (k.peek?, k.skip)

/-- Takes the next character if it is the expected one, and says whether it was. -/
def eat (expected : Char) (k : Cursor) : Bool × Cursor :=
  if k.peek? = some expected then (true, k.skip) else (false, k)

/-- Whether every byte has been read. -/
def isAtEnd (k : Cursor) : Bool :=
  decide (Text.byteLength k.source ≤ k.place.offset)

/-- The text from byte `start` up to the cursor, if `start` is a cut before it. -/
def sliceFrom? (k : Cursor) (start : Nat) : Option (List Char) :=
  Text.slice? k.source start k.place.offset

theorem length_rest_skip {k : Cursor} {c : Char} (h : k.peek? = some c) :
    k.skip.rest.length < k.rest.length := by
  obtain ⟨source, rest, place⟩ := k
  cases rest with
  | nil => simp [peek?] at h
  | cons d rest => simp [skip]

/-- Takes characters for as long as the next one meets a condition. -/
def eatWhile (p : Char → Bool) (k : Cursor) : Cursor :=
  match _h : k.peek? with
  | some c => if p c then eatWhile p k.skip else k
  | none => k
termination_by k.rest.length
decreasing_by exact length_rest_skip _h

end Cursor

end LoxTokenizer
