import LoxTokenizer.Text.CharSet

/-!
# White space

The characters with the property of being white space, twenty-five in all.

* **`isBlank_iff`**: the white-space characters are those in a range of the table.
-/

namespace LoxTokenizer.Text

/-- The ranges of the white-space characters. -/
def blankCharacters : CharSet :=
  [(0x9, 0xD), (0x20, 0x20), (0x85, 0x85), (0xA0, 0xA0), (0x1680, 0x1680), (0x2000, 0x200A),
   (0x2028, 0x2029), (0x202F, 0x202F), (0x205F, 0x205F), (0x3000, 0x3000)]

/-- Whether a character is white space. -/
def isBlank (c : Char) : Bool :=
  blankCharacters.has c

theorem blankCharacters_sorted : blankCharacters.Sorted := by decide

theorem isBlank_iff {c : Char} : isBlank c = true ↔ blankCharacters.Lists c.toNat :=
  CharSet.has_iff blankCharacters_sorted

end LoxTokenizer.Text
