import LoxTokenizer.Number.Binary64

/-!
# The shortest decimal that reads back

Among the decimals that round to a given floating-point number, the ones with the fewest digits,
and of these the nearest. For one digit, two digits and so on up to seventeen, the two neighbours
of the number on the grid of decimals with so many digits are tried; the first grid with a
neighbour that rounds back wins. All comparisons are between natural numbers.

* **`Shortest.candidate?_roundTrips`**: a decimal that a grid offers lies in the stretch of
  values that round to the number.
-/

namespace LoxTokenizer

/-- Which of two equally near decimals is taken. -/
inductive Tie where
  | up
  | even
  deriving DecidableEq, Repr

/-- A decimal by its digits, the first of which stands for a multiple of ten to `exponent`. -/
structure Decimal where
  digits : List Char
  exponent : Int
  deriving DecidableEq, Repr

namespace Shortest

/-- The exponent of the leading digit of a positive number of units. Scaled up by `10 ^ 400`,
every finite value but zero is at least one, and its whole part has one digit for each place. -/
def leadingExponent (units : Nat) : Int :=
  ((Nat.toDigits 10 ((units * Nat.pow 10 400) >>> 1074)).length : Int) - 401

/-- A number seen on the grid of the multiples of `10 ^ exponent`: the number is `num / den` grid
steps, and what rounds to it lies between `low / den` and `high / den` half steps. -/
structure Grid where
  num : Nat
  den : Nat
  low : Nat
  high : Nat
  inclusive : Bool

/-- The grid of the multiples of `10 ^ exponent` for the number with a given word. The bounds are
midway to the neighbouring words; they round to the number themselves if its word is even. -/
def Grid.of (word : Nat) (exponent : Int) : Grid :=
  let units := Binary64.unitsOf word
  let scale := Nat.pow 10 (-exponent).toNat
  { num := units * scale
    den := Nat.pow 10 exponent.toNat <<< 1074
    low := (Binary64.unitsOf (word - 1) + units) * scale
    high := (units + Binary64.unitsOf (word + 1)) * scale
    inclusive := word % 2 == 0 }

/-- Whether the multiple `d` of the grid step rounds to the number. -/
def Grid.roundTrips (g : Grid) (d : Nat) : Bool :=
  if g.inclusive then g.low ≤ 2 * d * g.den && 2 * d * g.den ≤ g.high
  else g.low < 2 * d * g.den && 2 * d * g.den < g.high

/-- The multiple of the grid step that rounds to the number and is nearest to it. -/
def Grid.candidate? (tie : Tie) (g : Grid) : Option Nat :=
  let below := g.num / g.den
  let above := below + 1
  match g.roundTrips below, g.roundTrips above with
  | false, false => none
  | true, false => some below
  | false, true => some above
  | true, true =>
    let middle := (below + above) * g.den
    if 2 * g.num < middle then some below
    else if middle < 2 * g.num then some above
    else match tie with
      | .up => some above
      | .even => some (if below % 2 = 0 then below else above)

/-- The digits of a decimal without the zeros at its end. -/
def significantDigits (d : Nat) : List Char :=
  ((Nat.toDigits 10 d).reverse.dropWhile (· == '0')).reverse

/-- The decimal of `d` steps of the grid with a given exponent. -/
def decimalOf (d : Nat) (exponent : Int) : Decimal :=
  ⟨significantDigits d, exponent + (Nat.toDigits 10 d).length - 1⟩

/-- The shortest decimal that reads back as the positive finite number with a given word. -/
def ofWord (tie : Tie) (word : Nat) : Decimal :=
  let leading := leadingExponent (Binary64.unitsOf word)
  let found := (List.range 17).findSome? fun (more : Nat) =>
    let exponent := leading - (more : Int)
    ((Grid.of word exponent).candidate? tie).map fun d => decimalOf d exponent
  found.getD ⟨['0'], 0⟩

/-! ## What a grid offers -/

theorem candidate?_roundTrips {tie : Tie} {g : Grid} {d : Nat} (h : g.candidate? tie = some d) :
    g.roundTrips d = true := by
  unfold Grid.candidate? at h
  cases hb : g.roundTrips (g.num / g.den) <;> cases ha : g.roundTrips (g.num / g.den + 1) <;>
    cases tie <;> simp only [hb, ha] at h <;> repeat' split at h
  all_goals simp_all

end Shortest

end LoxTokenizer
