/-!
# The lines of a source, as a report sees them

A report counts lines in its own way: a line ends after a carriage return, a line feed, the two
together, a vertical tab, a form feed, a next-line character, or a line or paragraph separator.
The ending belongs to its line, and there is no empty line after the last ending.

* **`flatten_splitLines`**: the lines are the source, cut into pieces.
-/

namespace LoxTokenizer.Report

/-- Whether a character ends a line. -/
def endsLine (c : Char) : Bool :=
  c == '\n' || c == '\r' || c == '\x0b' || c == '\x0c' || c == '\u0085' || c == '\u2028'
    || c == '\u2029'

/-- Puts a character in front of the first line. -/
def consFirst (c : Char) : List (List Char) → List (List Char)
  | [] => [[c]]
  | line :: lines => (c :: line) :: lines

/-- The lines of a text, each with its ending. -/
def splitLines : List Char → List (List Char)
  | [] => []
  | '\r' :: '\n' :: rest => ['\r', '\n'] :: splitLines rest
  | c :: rest => if endsLine c then [c] :: splitLines rest else consFirst c (splitLines rest)

theorem flatten_consFirst (c : Char) (lines : List (List Char)) :
    (consFirst c lines).flatten = c :: lines.flatten := by
  cases lines <;> rfl

theorem flatten_splitLines (text : List Char) : (splitLines text).flatten = text := by
  fun_induction splitLines text with
  | case1 => rfl
  | case2 rest ih => simp [ih]
  | case3 c rest _ _ ih => simp [ih]
  | case4 c rest _ _ ih => rw [flatten_consFirst, ih]

/-- A line, its number counted from one, and the number of characters before it. -/
structure Line where
  number : Nat
  start : Nat
  chars : List Char
  deriving DecidableEq, Repr

namespace Line

/-- The number of characters up to the end of a line, its ending included. -/
def stop (l : Line) : Nat :=
  l.start + l.chars.length

end Line

/-- Numbers the lines of a text, the first of which has a number and a start. -/
def numbered (number start : Nat) : List (List Char) → List Line
  | [] => []
  | chars :: lines =>
    ⟨number, start, chars⟩ :: numbered (number + 1) (start + chars.length) lines

/-- The lines of a source. -/
def lines (source : List Char) : List Line :=
  numbered 1 0 (splitLines source)

/-- The last of some lines that starts at or before a character offset. -/
def lineAt? (lines : List Line) (offset : Nat) : Option Line :=
  (lines.filter fun l => l.start ≤ offset).getLast?

end LoxTokenizer.Report
