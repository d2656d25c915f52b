import LoxTokenizer.CharClass
import LoxTokenizer.Number.Binary64

/-!
# Decimal numerals

A numeral is one or more digits, or such digits, a point, and one or more digits again. It stands
for a quotient whose denominator is a power of ten. Reading refuses every other spelling.
-/

namespace LoxTokenizer

/-- What a decimal numeral stands for: all its digits as one number, over ten to the number of
digits after the point. -/
structure Numeral where
  digits : Nat
  places : Nat
  deriving DecidableEq, Repr

namespace Numeral

/-- The value of a digit. -/
def digitValue (c : Char) : Nat :=
  c.toNat - '0'.toNat

/-- The value of a row of digits. -/
def digitsValue (digits : List Char) : Nat :=
  digits.foldl (fun value c => 10 * value + digitValue c) 0

/-- Reads a numeral, if the text is one. -/
def read? (text : List Char) : Option Numeral :=
  let whole := text.takeWhile CharClass.isDigit
  if whole.isEmpty then none
  else
    match text.dropWhile CharClass.isDigit with
    | [] => some ⟨digitsValue whole, 0⟩
    | '.' :: fraction =>
      if fraction.isEmpty || !fraction.all CharClass.isDigit then none
      else some ⟨digitsValue (whole ++ fraction), fraction.length⟩
    | _ => none

/-- The floating-point number nearest to a numeral. -/
def toBinary64 (n : Numeral) : Binary64 :=
  .ofQuotient n.digits (Nat.pow 10 n.places)

end Numeral

end LoxTokenizer
