import LoxTokenizer.Text.Bytes

/-!
# Places in a text

A `Position` is a line and a column, both counted from one and in characters, and an offset,
counted from zero and in bytes. Only a line feed starts a new line. A `Span` is the stretch from
one position up to another.

* **`Position.after_append`**: reading two texts one after the other is reading them joined.
* **`Position.offset_after`**: the offset moves by the bytes read.
-/

namespace LoxTokenizer

/-- A place between two characters of a text. -/
structure Position where
  line : Nat
  column : Nat
  offset : Nat
  deriving DecidableEq, Repr

namespace Position

/-- The place before the first character. -/
def start : Position := ⟨1, 1, 0⟩

/-- The place after one more character. -/
def advance (p : Position) (c : Char) : Position :=
  if c = '\n' then
    ⟨p.line + 1, 1, p.offset + c.utf8Size⟩
  else
    ⟨p.line, p.column + 1, p.offset + c.utf8Size⟩

/-- The place after all characters of a text. -/
def after (p : Position) (text : List Char) : Position :=
  text.foldl advance p

/-- A place is shown as its line and column. -/
def render (p : Position) : String :=
  toString p.line ++ ":" ++ toString p.column

@[simp] theorem after_nil (p : Position) : p.after [] = p := rfl

@[simp] theorem after_cons (p : Position) (c : Char) (text : List Char) :
    p.after (c :: text) = (p.advance c).after text := rfl

theorem after_append (p : Position) (a b : List Char) : p.after (a ++ b) = (p.after a).after b := by
  simp [after]

@[simp] theorem offset_advance (p : Position) (c : Char) :
    (p.advance c).offset = p.offset + c.utf8Size := by
  unfold advance
  split <;> rfl

theorem offset_after (p : Position) (text : List Char) :
    (p.after text).offset = p.offset + Text.byteLength text := by
  induction text generalizing p with
  | nil => rfl
  | cons c text ih => simp [ih, Nat.add_assoc]

@[simp] theorem offset_start_after (text : List Char) :
    (start.after text).offset = Text.byteLength text := by
  rw [offset_after]
  exact Nat.zero_add _

end Position

/-- The stretch of a text from `start` up to, and without, `stop`. -/
structure Span where
  start : Position
  stop : Position
  deriving DecidableEq, Repr

namespace Span

/-- The byte offsets at which a span starts and stops. -/
def range (s : Span) : Nat × Nat :=
  (s.start.offset, s.stop.offset)

/-- A span without a byte, such as one just past the end of the text. -/
def isEmpty (s : Span) : Bool :=
  s.start.offset == s.stop.offset

/-- A span is shown as the place where it starts. -/
def render (s : Span) : String :=
  s.start.render

end Span

end LoxTokenizer
