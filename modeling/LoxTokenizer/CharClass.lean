/-!
# Classes of characters

The classes that the lexical grammar is made of. They hold ASCII characters only: letters and
digits of other scripts belong to no token but a string or a comment.

* **`CharClass.isDigit_iff`**, **`CharClass.isWordStart_iff`**: the classes as ranges of characters.
* `CharClass.not_isDigit_of_isWordStart`: no digit starts a word.
-/

namespace LoxTokenizer.CharClass

/-- The ten decimal digits. -/
def isDigit (c : Char) : Bool :=
  c.isDigit

/-- What a word may start with: a letter or the underscore. -/
def isWordStart (c : Char) : Bool :=
  c.isAlpha || c == '_'

/-- What a word may go on with. -/
def isWordPart (c : Char) : Bool :=
  isWordStart c || isDigit c

variable {c : Char}

theorem isDigit_iff : isDigit c = true ↔ '0' ≤ c ∧ c ≤ '9' := by
  simp [isDigit, Char.isDigit, Char.le_def]

example : ['7', 'a', '\u0663'].map isDigit = [true, false, false] := by decide

theorem isWordStart_iff : isWordStart c = true ↔
    ('A' ≤ c ∧ c ≤ 'Z') ∨ ('a' ≤ c ∧ c ≤ 'z') ∨ c = '_' := by
  have hupper : c.isUpper = decide ('A' ≤ c ∧ c ≤ 'Z') := rfl
  have hlower : c.isLower = (decide ('a' ≤ c) && decide (c ≤ 'z')) := rfl
  have halpha : c.isAlpha = (c.isUpper || c.isLower) := rfl
  simp only [isWordStart, halpha, hupper, hlower, Bool.or_eq_true, Bool.and_eq_true,
    decide_eq_true_eq, beq_iff_eq, or_assoc]

example : ['_', '7', '\u00e9'].map isWordStart = [true, false, false] := by decide

/-- A word goes on with what it may start with, and with digits. -/
theorem isWordPart_iff : isWordPart c = true ↔ isWordStart c = true ∨ isDigit c = true := by
  simp [isWordPart]

/-- No digit starts a word. -/
theorem not_isDigit_of_isWordStart (h : isWordStart c = true) : isDigit c = false := by
  rw [← Bool.not_eq_true, isDigit_iff]
  rintro ⟨hlow, hhigh⟩
  rcases isWordStart_iff.1 h with ⟨hupper, -⟩ | ⟨hlower, -⟩ | rfl
  · exact absurd (Char.le_trans hupper hhigh) (by decide)
  · exact absurd (Char.le_trans hlower hhigh) (by decide)
  · exact absurd hhigh (by decide)

end LoxTokenizer.CharClass
