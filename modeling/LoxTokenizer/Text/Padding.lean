/-!
# Fields of a fixed width

A text cut to at most so many characters and then padded to at least so many. Where a field is
centred, the odd fill character goes to the right.

The counts of a field have sixteen bits: a field that asks for more cannot be laid out.

* **`length_layOut`**: a padded field is as wide as asked for, or as its text.
* **`lay?_eq_none_iff`**: a field is refused exactly when one of its counts is too large.
-/

namespace LoxTokenizer.Text

/-- On which side of its field a text stands. -/
inductive Alignment where
  | left
  | right
  | center
  deriving DecidableEq, Repr

/-- The form of a field. -/
structure Field where
  align : Alignment
  width : Nat
  fill : Char
  limit : Option Nat
  deriving DecidableEq, Repr

namespace Field

/-- A field filled with spaces that cuts nothing off. -/
def spaces (align : Alignment) (width : Nat) : Field :=
  ⟨align, width, ' ', none⟩

/-- The text as far as a field shows it. -/
def cut (f : Field) (text : List Char) : List Char :=
  match f.limit with
  | some n => text.take n
  | none => text

/-- How many fill characters go before a text of some length. -/
def before (f : Field) (length : Nat) : Nat :=
  match f.align with
  | .left => 0
  | .right => f.width - length
  | .center => (f.width - length) / 2

/-- A text in its field. -/
def layOut (f : Field) (text : List Char) : List Char :=
  let shown := f.cut text
  let before := f.before shown.length
  let after := f.width - shown.length - before
  List.replicate before f.fill ++ shown ++ List.replicate after f.fill

/-- A string in its field. -/
def lay (f : Field) (s : String) : String :=
  String.ofList (f.layOut s.toList)

/-- The largest width, and the largest number of characters shown, that a field may ask for. -/
def maxCount : Nat := 0xFFFF

/-- Whether the counts of a field are not too large. -/
def IsSmall (f : Field) : Prop :=
  f.width ≤ maxCount ∧ f.limit.getD 0 ≤ maxCount

instance (f : Field) : Decidable f.IsSmall :=
  inferInstanceAs (Decidable (_ ∧ _))

/-- A string in its field, if the counts of the field are not too large. -/
def lay? (f : Field) (s : String) : Option String :=
  if f.IsSmall then some (f.lay s) else none

theorem lay?_eq_none_iff {f : Field} {s : String} :
    f.lay? s = none ↔ maxCount < f.width ∨ ∃ n ∈ f.limit, maxCount < n := by
  obtain ⟨_, width, _, limit⟩ := f
  unfold lay?
  split <;> cases limit <;> simp_all [IsSmall]
  omega

theorem length_layOut (f : Field) (text : List Char) :
    (f.layOut text).length = max f.width (f.cut text).length := by
  simp only [layOut, before, List.length_append, List.length_replicate]
  cases f.align <;> dsimp only <;> omega

end Field

end LoxTokenizer.Text
