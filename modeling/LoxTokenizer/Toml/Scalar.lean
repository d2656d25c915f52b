import LoxTokenizer.Number.Numeral
import LoxTokenizer.Toml.Value

/-!
# Truth values, numbers and dates of a TOML document

These values are single words. A word is read as a whole, so anything that it holds beyond a value
makes it ill-formed. A date and a time of day may also be two words with one space between them.

An integer has to fit in 64 bits with a sign. A number with a point or an exponent is rounded to
the nearest floating-point number; one that is too large is refused if it is positive and becomes
infinity if it is negative.
-/

namespace LoxTokenizer.Toml.Scalar

open CharClass

/-- What a word is made of. -/
def isWordChar (c : Char) : Bool :=
  c.isAlphanum || c == '_' || c == '+' || c == '-' || c == '.' || c == ':'

/-! ## Digits -/

/-- The digits of a group in which single underscores may stand between digits. -/
def group? (isDigit : Char → Bool) : List Char → Option (List Char)
  | [] => none
  | [c] => if isDigit c then some [c] else none
  | c :: '_' :: rest =>
    if isDigit c then (group? isDigit rest).map fun digits => c :: digits else none
  | c :: rest =>
    if isDigit c then (group? isDigit rest).map fun digits => c :: digits else none

/-- Whether digits start with a zero that another digit follows. -/
def hasLeadingZero : List Char → Bool
  | '0' :: _ :: _ => true
  | _ => false

/-- The digits of a whole number without a sign. -/
def whole? (text : List Char) : Option (List Char) :=
  (group? isDigit text).bind fun digits => if hasLeadingZero digits then none else some digits

/-- A sign, which may be missing, and what follows it. -/
def splitSign : List Char → Bool × List Char
  | '-' :: rest => (true, rest)
  | '+' :: rest => (false, rest)
  | text => (false, text)

/-! ## Integers -/

/-- An integer that fits in 64 bits with a sign. -/
def fitting? (n : Int) : Option Int :=
  if Int64.minValue.toInt ≤ n ∧ n ≤ Int64.maxValue.toInt then some n else none

/-- The value of digits in some base, given the value of each. -/
def radixValue (base : Nat) (value : Char → Nat) (digits : List Char) : Nat :=
  digits.foldl (fun n c => base * n + value c) 0

/-- The value of a hexadecimal digit. -/
def hexValue (c : Char) : Nat :=
  if isDigit c then Numeral.digitValue c else (c.toLower.toNat - 'a'.toNat) + 10

/-- Whether a character is a hexadecimal digit. -/
def isHexDigit (c : Char) : Bool :=
  isDigit c || ('a' ≤ c && c ≤ 'f') || ('A' ≤ c && c ≤ 'F')

/-- Whether a character is a digit below some bound. -/
def isDigitBelow (bound c : Char) : Bool :=
  '0' ≤ c && c < bound

/-- An integer, with a sign in base ten or with the mark of another base. -/
def integer? : List Char → Option Int
  | '0' :: 'x' :: rest =>
    (group? isHexDigit rest).bind fun digits => fitting? (radixValue 16 hexValue digits)
  | '0' :: 'o' :: rest =>
    (group? (isDigitBelow '8') rest).bind fun digits =>
      fitting? (radixValue 8 Numeral.digitValue digits)
  | '0' :: 'b' :: rest =>
    (group? (isDigitBelow '2') rest).bind fun digits =>
      fitting? (radixValue 2 Numeral.digitValue digits)
  | text =>
    let (negative, rest) := splitSign text
    (whole? rest).bind fun digits =>
      let n : Int := Numeral.digitsValue digits
      fitting? (if negative then -n else n)

/-! ## Floating-point numbers -/

/-- The number nearest to `digits * 10 ^ exponent`. Where the exponent alone decides that the
number is past every finite one, or below half of the least one, no power is computed. -/
def nearest (digits : Nat) (exponent : Int) : Binary64 :=
  let size := ((Nat.toDigits 10 digits).length : Int) + exponent
  if digits = 0 ∨ size < -400 then .zero
  else if 400 < size then .infinity
  else .ofQuotient (digits * Nat.pow 10 exponent.toNat) (Nat.pow 10 (-exponent).toNat)

/-- A fraction at the front of a text, which may be missing, and what follows it. -/
def fraction? : List Char → Option (List Char × List Char)
  | '.' :: rest =>
    let isPart := fun c => isDigit c || c == '_'
    (group? isDigit (rest.takeWhile isPart)).map fun digits =>
      (digits, rest.dropWhile isPart)
  | text => some ([], text)

/-- An exponent that ends a text, which may be missing. -/
def exponent? : List Char → Option Int
  | [] => some 0
  | c :: rest =>
    if c = 'e' ∨ c = 'E' then
      let (negative, digits) := splitSign rest
      (group? isDigit digits).map fun digits =>
        let n : Int := Numeral.digitsValue digits
        if negative then -n else n
    else none

/-- A number with a fraction, an exponent, or both, after its sign. -/
def decimal? (text : List Char) : Option Binary64 := do
  let isPart := fun c => isDigit c || c == '_'
  let whole ← whole? (text.takeWhile isPart)
  let tail := text.dropWhile isPart
  let (fraction, rest) ← fraction? tail
  let exponent ← exponent? rest
  if tail.isEmpty then none
  else some (nearest (Numeral.digitsValue (whole ++ fraction)) (exponent - fraction.length))

/-- A floating-point number. -/
def float? (text : List Char) : Option Float :=
  let (negative, rest) := splitSign text
  if rest = ['i', 'n', 'f'] then some (.signed negative .infinity)
  else if rest = ['n', 'a', 'n'] then some .nan
  else
    (decimal? rest).bind fun x =>
      if x.isInfinite && !negative then none else some (.signed negative x)

/-! ## Dates -/

/-- The number that two digits stand for. -/
def two? (a b : Char) : Option Nat :=
  if isDigit a && isDigit b then some (Numeral.digitsValue [a, b]) else none

/-- The number of days of a month. -/
def daysOfMonth (year month : Nat) : Nat :=
  let isLeap := year % 4 == 0 && (year % 100 != 0 || year % 400 == 0)
  if month = 2 then (if isLeap then 29 else 28)
  else if month = 4 ∨ month = 6 ∨ month = 9 ∨ month = 11 then 30
  else 31

/-- A date at the front of a text, and what follows it. -/
def afterDate? : List Char → Option (List Char)
  | y₁ :: y₂ :: y₃ :: y₄ :: '-' :: m₁ :: m₂ :: '-' :: d₁ :: d₂ :: rest => do
    let century ← two? y₁ y₂
    let yearOfCentury ← two? y₃ y₄
    let month ← two? m₁ m₂
    let day ← two? d₁ d₂
    let year := 100 * century + yearOfCentury
    if 1 ≤ month ∧ month ≤ 12 ∧ 1 ≤ day ∧ day ≤ daysOfMonth year month
    then some rest
    else none
  | _ => none

/-- A fraction of a second at the front of a text, which may be missing, and what follows it. -/
def afterSecondFraction? : List Char → Option (List Char)
  | '.' :: rest => if (rest.takeWhile isDigit).isEmpty then none else some (rest.dropWhile isDigit)
  | text => some text

/-- A time of day at the front of a text, and what follows it. A minute may have a leap second. -/
def afterTime? : List Char → Option (List Char)
  | h₁ :: h₂ :: ':' :: m₁ :: m₂ :: ':' :: s₁ :: s₂ :: rest => do
    let hour ← two? h₁ h₂
    let minute ← two? m₁ m₂
    let second ← two? s₁ s₂
    if hour < 24 ∧ minute < 60 ∧ second ≤ 60 then afterSecondFraction? rest else none
  | _ => none

/-- Whether a text is a time zone, or empty. -/
def isZone : List Char → Bool
  | [] => true
  | ['Z'] | ['z'] => true
  | [sign, h₁, h₂, ':', m₁, m₂] =>
    (sign == '+' || sign == '-') && (two? h₁ h₂).any (· < 24) && (two? m₁ m₂).any (· < 60)
  | _ => false

/-- Whether a text is a time of day with a time zone or without. -/
def isZonedTime (text : List Char) : Bool :=
  (afterTime? text).any isZone

/-- Whether a word is a date, a time of day, or a date and a time of day. -/
def isDate (text : List Char) : Bool :=
  match afterDate? text with
  | some [] => true
  | some ('T' :: time) => isZonedTime time
  | some ('t' :: time) => isZonedTime time
  | some _ => false
  | none => afterTime? text == some []

/-! ## Words -/

/-- The value of a word. -/
def ofWord? (word : List Char) : Option Value :=
  if word = ['t', 'r', 'u', 'e'] then some (.boolean true)
  else if word = ['f', 'a', 'l', 's', 'e'] then some (.boolean false)
  else if isDate word then some .date
  else
    match float? word with
    | some x => some (.float x)
    | none => (integer? word).map .integer

/-- A value of one word at the front of a text, or of two if they are a date and a time of day
with a space between them, and what follows it. -/
def read? (text : List Char) : Option (Value × List Char) :=
  let word := text.takeWhile isWordChar
  let rest := text.dropWhile isWordChar
  match afterDate? word, rest with
  | some [], ' ' :: digit :: more =>
    if isDigit digit then
      let time := (digit :: more).takeWhile isWordChar
      if isZonedTime time then some (.date, (digit :: more).dropWhile isWordChar) else none
    else some (.date, rest)
  | _, _ => (ofWord? word).map fun value => (value, rest)

end LoxTokenizer.Toml.Scalar
