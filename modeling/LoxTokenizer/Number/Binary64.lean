/-!
# Nonnegative binary floating point

The numbers of the 64-bit binary format that are not negative: zero, the subnormal and normal
numbers, and infinity. A number is kept as its word, read as a natural number, because the words
are in the order of the values. Every finite value is a whole multiple, `unitsOf`, of the least
positive one, `2 ^ (-1074)`, so comparing and rounding are exact arithmetic on natural numbers.

* **`Binary64.ofQuotient`**: the nearest number to a quotient, with a tie going to the even word.
* **`unitsOf_significand`**: the word `shift * hiddenBit + m` is worth `m <<< shift` units.
-/

namespace LoxTokenizer

/-- The word of infinity, which is the greatest one. -/
def Binary64.infinityWord : Nat := 0x7FF0000000000000

/-- A nonnegative 64-bit binary floating-point number. -/
structure Binary64 where
  word : Nat
  word_le : word ≤ Binary64.infinityWord
  deriving DecidableEq, Repr

namespace Binary64

/-- The hidden bit of a significand, `2 ^ 52`: the one above the bits that a word stores. -/
def hiddenBit : Nat := 0x10000000000000

/-- The value of a word as a multiple of `2 ^ (-1074)`. The word of infinity gets the value that
the next power of two would have, which is where rounding starts to overflow. -/
def unitsOf (word : Nat) : Nat :=
  if word < hiddenBit then word
  else (hiddenBit + word % hiddenBit) <<< (word / hiddenBit - 1)

/-- The quotient rounded to the nearest natural number, and at a tie to the even one. -/
def roundHalfEven (num den : Nat) : Nat :=
  let floor := num / den
  let twice := 2 * (num % den)
  if twice < den then floor
  else if den < twice then floor + 1
  else floor + floor % 2

/-- The number zero. -/
def zero : Binary64 := ⟨0, Nat.zero_le _⟩

/-- Infinity. -/
def infinity : Binary64 := ⟨infinityWord, Nat.le_refl _⟩

/-- Whether a number is infinity. -/
def isInfinite (x : Binary64) : Bool :=
  x.word == infinityWord

/-- The number with a word, or infinity for any greater one. -/
def ofWord (word : Nat) : Binary64 :=
  ⟨min word infinityWord, Nat.min_le_right _ _⟩

/-- The number nearest to `num / den`, with a tie going to the even word.

The quotient is counted in units. As many of its low bits are cut as leave a significand of 53
bits, and none where it has fewer; the rest is rounded. A significand that rounding carries to
`2 ^ 53` gives the word of the next power of two, which is the right one. -/
def ofQuotient (num den : Nat) : Binary64 :=
  let scaled := num <<< 1074
  let shift := Nat.log2 (scaled / den) - 52
  ofWord (shift * hiddenBit + roundHalfEven scaled (den <<< shift))

/-! ## Words and significands -/

theorem unitsOf_significand {m shift : Nat} (low : shift = 0 ∨ hiddenBit ≤ m)
    (high : m < 2 * hiddenBit) : unitsOf (shift * hiddenBit + m) = m <<< shift := by
  unfold unitsOf
  by_cases small : shift * hiddenBit + m < hiddenBit
  · have none : shift = 0 := by
      unfold hiddenBit at *
      omega
    rw [if_pos small, none, Nat.zero_mul, Nat.zero_add, Nat.shiftLeft_zero]
  · have quotient : (shift * hiddenBit + m) / hiddenBit = shift + 1 := by
      unfold hiddenBit at *
      omega
    have remainder : hiddenBit + (shift * hiddenBit + m) % hiddenBit = m := by
      unfold hiddenBit at *
      omega
    rw [if_neg small, quotient, remainder, Nat.add_sub_cancel]

end Binary64

end LoxTokenizer
