import LoxTokenizer.Number.Shortest

/-!
# Styles of writing numbers

Every style writes the shortest digits that read back. A style says which decimals are written
out in full and which with an exponent, how an exponent is marked, which of two equally short and
equally near decimals is taken, and the word for infinity. A number that is written out has a
digit on both sides of the point.
-/

namespace LoxTokenizer

/-- The choices of a way to write floating-point numbers. -/
structure NumberStyle where
  /-- Whether a number whose leading digit has this exponent is written out in full. -/
  positional : Int → Bool
  /-- Whether an exponent that is not negative gets a sign. -/
  plusSign : Bool
  /-- Which of two equally near decimals is written. -/
  tie : Tie
  /-- The word for infinity. -/
  infinity : String

namespace NumberStyle

/-- Token listings write numbers from `10 ^ (-4)` up to `10 ^ 16` in full. -/
def listing : NumberStyle where
  positional e := decide (-4 ≤ e) && decide (e < 16)
  plusSign := false
  tie := .up
  infinity := "inf"

/-- JSON writes numbers from `10 ^ (-5)` up to `10 ^ 16` in full and signs every exponent; it has
no infinity, which becomes `null`. -/
def json : NumberStyle where
  positional e := decide (-5 ≤ e) && decide (e < 16)
  plusSign := true
  tie := .even
  infinity := "null"

/-- Messages about a manifest write every number in full. -/
def message : NumberStyle where
  positional _ := true
  plusSign := false
  tie := .up
  infinity := "inf"

/-- A decimal written out in full, with a digit on both sides of the point. -/
def writePositional (d : Decimal) : List Char :=
  if d.exponent < 0 then
    ['0', '.'] ++ List.replicate (-d.exponent - 1).toNat '0' ++ d.digits
  else
    let places := d.exponent.toNat + 1
    let whole := d.digits.take places ++ List.replicate (places - d.digits.length) '0'
    let fraction := d.digits.drop places
    whole ++ ['.'] ++ (if fraction.isEmpty then ['0'] else fraction)

/-- A decimal with an exponent: one digit, a point and the others if there are any. -/
def writeScientific (plusSign : Bool) (d : Decimal) : List Char :=
  let sign := if d.exponent < 0 then ['-'] else if plusSign then ['+'] else []
  let fraction := d.digits.drop 1
  d.digits.take 1 ++ (if fraction.isEmpty then [] else '.' :: fraction)
    ++ ['e'] ++ sign ++ Nat.toDigits 10 d.exponent.natAbs

/-- A number written in a style. -/
def write (style : NumberStyle) (x : Binary64) : String :=
  if x.isInfinite then style.infinity
  else if x.word = 0 then "0.0"
  else
    let d := Shortest.ofWord style.tie x.word
    String.ofList <|
      if style.positional d.exponent then writePositional d
      else writeScientific style.plusSign d

end NumberStyle

end LoxTokenizer
