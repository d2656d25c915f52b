import LoxTokenizer.Number.Numeral
import LoxTokenizer.Number.Style
import LoxTokenizer.Proofs.Lexeme.Recognition
import LoxTokenizer.Proofs.Number.Shortest

/-!
# Numerals of JSON, read back

A numeral has a whole part, which no idle zero starts, and maybe a fraction and an exponent. It is
read to an exact value, and from there to the nearest floating-point number. Every finite number is
written as a numeral that reads back as the number itself, and every natural number as one that
reads back without rounding. A minus sign is refused: no number here has one.

* `Scientific`: what a numeral stands for.
* `numeral?`: the reader.
* `exists_numeral_writePositional`, `exists_numeral_writeScientific`: the two forms of a decimal.
* **`numeral?_write`**: a finite number is read back as itself.
* **`numeral?_natural`**: a natural number is read back.
-/

namespace LoxTokenizer

/-! ## Values -/

/-- What a numeral stands for: a multiple of ten to some exponent. -/
structure Scientific where
  digits : ℕ
  exponent : ℤ
  deriving DecidableEq, Repr

namespace Scientific

/-- The exact value. -/
def value (n : Scientific) : ℚ :=
  n.digits * 10 ^ n.exponent

/-- The floating-point number nearest to the value. -/
def toBinary64 (n : Scientific) : Binary64 :=
  .ofQuotient (n.digits * Nat.pow 10 n.exponent.toNat) (Nat.pow 10 (-n.exponent).toNat)

theorem toBinary64_of_nearest {n : Scientific} {word : ℕ} (h : Binary64.Nearest word n.value) :
    n.toBinary64 = Binary64.ofWord word := by
  refine Binary64.ofQuotient_of_nearest (Nat.pow_pos (by decide)) ?_
  have hscale : ((10 ^ (-n.exponent).toNat : ℕ) : ℚ) ≠ 0 := by positivity
  have hvalue : ((n.digits * Nat.pow 10 n.exponent.toNat : ℕ) : ℚ) /
      (Nat.pow 10 (-n.exponent).toNat : ℕ) = n.value := by
    unfold value
    rw [Nat.pow_eq, Nat.pow_eq, Nat.cast_mul, Shortest.cast_pow_toNat, div_eq_iff hscale]
    ring
  rwa [hvalue]

end Scientific

/-- The exact value of a decimal. -/
def Decimal.value (d : Decimal) : ℚ :=
  Numeral.digitsValue d.digits * 10 ^ (d.exponent + 1 - d.digits.length)

/-- A decimal has digits, and the first one is not zero. -/
structure Decimal.Proper (d : Decimal) : Prop where
  digits : ∀ c ∈ d.digits, CharClass.isDigit c = true
  nonempty : d.digits ≠ []
  leading : d.digits.head? ≠ some '0'

/-! ## Rows of digits -/

namespace Numeral

variable {n : ℕ}

theorem digitsValue_append (high low : List Char) :
    digitsValue (high ++ low) = 10 ^ low.length * digitsValue high + digitsValue low := by
  have happend := Nat.ofDigitChars_append (b := 10) (l := high) (m := low) 0
  rw [Nat.ofDigitChars_eq_ofDigitChars_zero (l := low)] at happend
  exact happend

theorem digitsValue_zeros (k : ℕ) : digitsValue (List.replicate k '0') = 0 := by
  induction k with
  | zero => rfl
  | succ k ih => exact ih

theorem digitsValue_toDigits (n : ℕ) : digitsValue (Nat.toDigits 10 n) = n :=
  Nat.ofDigitChars_ten_toDigits

theorem isDigit_of_mem_toDigits {c : Char} (h : c ∈ Nat.toDigits 10 n) :
    CharClass.isDigit c = true :=
  Nat.isDigit_of_mem_toDigits (by decide) (by decide) h

/-- No positive number starts with a zero. -/
theorem head?_toDigits (hn : 0 < n) : (Nat.toDigits 10 n).head? ≠ some '0' := by
  induction n using Nat.strongRecOn with
  | ind n ih =>
    rw [Nat.toDigits_eq_if (by decide)]
    split
    case isTrue h =>
      have hdigits : ∀ d < 10, 0 < d → [Nat.digitChar d].head? ≠ some '0' := by decide
      exact hdigits n h hn
    case isFalse h =>
      rw [List.head?_append_of_ne_nil _ Nat.toDigits_ne_nil]
      exact ih (n / 10) (by omega) (by omega)

end Numeral

/-! ## The shortest decimal -/

namespace Shortest

/-- The digits that are left, and the zeros that were dropped. -/
theorem exists_zeros (d : ℕ) :
    ∃ k, Nat.toDigits 10 d = significantDigits d ++ List.replicate k '0' := by
  have hzeros : ∀ c ∈ (Nat.toDigits 10 d).reverse.takeWhile (· == '0'), c = '0' := fun c hc =>
    eq_of_beq (List.mem_takeWhile_imp (p := (· == '0')) hc)
  refine ⟨((Nat.toDigits 10 d).reverse.takeWhile (· == '0')).length, ?_⟩
  unfold significantDigits
  rw [← List.reverse_replicate, ← List.eq_replicate_of_mem hzeros, ← List.reverse_append,
    List.takeWhile_append_dropWhile, List.reverse_reverse]

theorem value_decimalOf (d : ℕ) (e : ℤ) : (decimalOf d e).value = d * 10 ^ e := by
  obtain ⟨k, hk⟩ := exists_zeros d
  have hd : d = 10 ^ k * Numeral.digitsValue (significantDigits d) := by
    have hvalue := Numeral.digitsValue_toDigits d
    rw [hk, Numeral.digitsValue_append, Numeral.digitsValue_zeros, List.length_replicate] at hvalue
    exact hvalue.symm
  have hexponent : e + (Nat.toDigits 10 d).length - 1 + 1 - (significantDigits d).length =
      k + e := by
    rw [hk, List.length_append, List.length_replicate]
    push_cast
    ring
  unfold Decimal.value decimalOf
  rw [hexponent, zpow_add₀ (by norm_num), zpow_natCast]
  conv_rhs => rw [hd]
  push_cast
  ring

theorem proper_decimalOf {d : ℕ} (hd : 0 < d) (e : ℤ) : (decimalOf d e).Proper := by
  obtain ⟨k, hk⟩ := exists_zeros d
  have hnonempty : significantDigits d ≠ [] := by
    intro hnil
    have hvalue := Numeral.digitsValue_toDigits d
    rw [hk, hnil, List.nil_append, Numeral.digitsValue_zeros] at hvalue
    omega
  refine ⟨fun c hc => ?_, hnonempty, ?_⟩
  · refine Numeral.isDigit_of_mem_toDigits (n := d) ?_
    rw [hk]
    exact List.mem_append_left _ hc
  · have hhead := Numeral.head?_toDigits hd
    rwa [hk, List.head?_append_of_ne_nil _ hnonempty] at hhead

end Shortest

/-! ## The reader -/

namespace Json

open CharClass (isDigit)
open Numeral (digitsValue digitsValue_append digitsValue_zeros)

/-- What a row of digits stands for, if it is one. -/
def digits? (text : List Char) : Option ℕ :=
  if text.isEmpty || !text.all isDigit then none else some (digitsValue text)

/-- A row of digits with a sign or without one. -/
def signed? : List Char → Option ℤ
  | '+' :: digits => (digits? digits).map fun n : ℕ => (n : ℤ)
  | '-' :: digits => (digits? digits).map fun n : ℕ => -(n : ℤ)
  | digits => (digits? digits).map fun n : ℕ => (n : ℤ)

/-- The exponent at the end of a numeral. Where there is none it is zero. -/
def exponent? : List Char → Option ℤ
  | [] => some 0
  | mark :: rest => if mark = 'e' ∨ mark = 'E' then signed? rest else none

/-- The fraction and the exponent behind a whole part. -/
def fraction? (whole : List Char) : List Char → Option Scientific
  | '.' :: rest =>
    let fraction := rest.takeWhile isDigit
    if fraction.isEmpty then none
    else (exponent? (rest.dropWhile isDigit)).map fun e =>
      ⟨digitsValue (whole ++ fraction), e - fraction.length⟩
  | rest => (exponent? rest).map fun e => ⟨digitsValue whole, e⟩

/-- Whether a row of digits may stand as a whole part: it is zero or starts with another digit. -/
def isWhole (digits : List Char) : Bool :=
  digits == ['0'] || (!digits.isEmpty && digits.head? != some '0')

/-- Reads a numeral, if the text is one. -/
def numeral? (text : List Char) : Option Scientific :=
  if isWhole (text.takeWhile isDigit) then
    fraction? (text.takeWhile isDigit) (text.dropWhile isDigit)
  else none

variable {whole fraction rest digits : List Char} {d : Decimal}

theorem digits?_eq_some (hne : digits ≠ []) (h : ∀ c ∈ digits, isDigit c = true) :
    digits? digits = some (digitsValue digits) := by
  have hnonempty : digits.isEmpty = false := by simpa using hne
  have hall : digits.all isDigit = true := List.all_eq_true.mpr h
  simp [digits?, hnonempty, hall]

theorem numeral?_append (hwhole : isWhole whole = true) (h : ∀ c ∈ whole, isDigit c = true)
    (hrest : ∀ c ∈ rest.head?, isDigit c = false) :
    numeral? (whole ++ rest) = fraction? whole rest := by
  unfold numeral?
  rw [Lexeme.takeWhile_append h hrest, Lexeme.dropWhile_append h hrest, if_pos hwhole]

theorem fraction?_nil : fraction? whole [] = some ⟨digitsValue whole, 0⟩ := rfl

theorem fraction?_mark : fraction? whole ('e' :: rest) =
    (exponent? ('e' :: rest)).map fun e => ⟨digitsValue whole, e⟩ := rfl

theorem isWhole_of_leading (hne : digits ≠ []) (hleading : digits.head? ≠ some '0') :
    isWhole digits = true := by
  have hnonempty : digits.isEmpty = false := by simpa using hne
  simp [isWhole, hnonempty, hleading]

/-! ## What is read back -/

/-- The exponent with its sign. -/
theorem exponent?_write (e : ℤ) :
    exponent? ('e' :: (if e < 0 then '-' else '+') :: Nat.toDigits 10 e.natAbs) = some e := by
  have hdigits := digits?_eq_some (Nat.toDigits_ne_nil (n := e.natAbs) (b := 10))
    fun c hc => Numeral.isDigit_of_mem_toDigits hc
  rw [Numeral.digitsValue_toDigits] at hdigits
  split
  · have hread : exponent? ('e' :: '-' :: Nat.toDigits 10 e.natAbs) =
        (digits? (Nat.toDigits 10 e.natAbs)).map fun n : ℕ => -(n : ℤ) := rfl
    rw [hread, hdigits, Option.map_some]
    exact congrArg some (by omega)
  · have hread : exponent? ('e' :: '+' :: Nat.toDigits 10 e.natAbs) =
        (digits? (Nat.toDigits 10 e.natAbs)).map fun n : ℕ => (n : ℤ) := rfl
    rw [hread, hdigits, Option.map_some]
    exact congrArg some (by omega)

/-- **A natural number is read back.** -/
theorem numeral?_natural (n : ℕ) : numeral? (toString n).toList = some ⟨n, 0⟩ := by
  have hwhole : isWhole (Nat.toDigits 10 n) = true := by
    rcases Nat.eq_zero_or_pos n with rfl | hn
    · decide
    · exact isWhole_of_leading Nat.toDigits_ne_nil (Numeral.head?_toDigits hn)
  have hread : numeral? (Nat.toDigits 10 n ++ []) = fraction? (Nat.toDigits 10 n) [] :=
    numeral?_append hwhole (fun c hc => Numeral.isDigit_of_mem_toDigits hc) (by simp)
  rw [List.append_nil] at hread
  rw [Nat.toString_eq_ofList_toDigits, String.toList_ofList, hread, fraction?_nil,
    Numeral.digitsValue_toDigits]

theorem isDigit_of_mem_zeros {k : ℕ} {c : Char} (h : c ∈ List.replicate k '0') :
    isDigit c = true := by
  rw [List.eq_of_mem_replicate h]
  rfl

/-- A numeral with a point has the value of a decimal if it has its digits, with any zeros before
them and so many behind them as the exponents differ by. -/
theorem exists_numeral_point (whole fraction : List Char) (before behind : ℕ) {e : ℤ}
    (h : d.Proper)
    (hsplit : whole ++ fraction =
      List.replicate before '0' ++ (d.digits ++ List.replicate behind '0'))
    (hwhole : isWhole whole = true) (hne : fraction ≠ [])
    (hrest : ∀ c ∈ rest.head?, isDigit c = false) (hread : exponent? rest = some e)
    (hexponent : e + behind + d.digits.length = d.exponent + 1 + fraction.length) :
    ∃ n, numeral? (whole ++ '.' :: (fraction ++ rest)) = some n ∧ n.value = d.value := by
  have hdigits : ∀ c ∈ whole ++ fraction, isDigit c = true := by
    intro c hc
    rw [hsplit, List.mem_append, List.mem_append] at hc
    rcases hc with hc | hc | hc
    · exact isDigit_of_mem_zeros hc
    · exact h.digits c hc
    · exact isDigit_of_mem_zeros hc
  have hdigits' := fun c hc => hdigits c (List.mem_append_right _ hc)
  have hnonempty : fraction.isEmpty = false := by simpa using hne
  refine ⟨⟨digitsValue (whole ++ fraction), e - fraction.length⟩, ?_, ?_⟩
  · rw [numeral?_append hwhole (fun c hc => hdigits c (List.mem_append_left _ hc))
        (fun c hc => by cases hc; rfl), fraction?, Lexeme.takeWhile_append hdigits' hrest,
      Lexeme.dropWhile_append hdigits' hrest, hnonempty, hread]
    rfl
  · have hscale : e - fraction.length + behind = d.exponent + 1 - d.digits.length := by omega
    unfold Scientific.value Decimal.value
    rw [← hscale, hsplit, digitsValue_append, digitsValue_append, digitsValue_zeros,
      digitsValue_zeros, List.length_replicate, zpow_add₀ (by norm_num), zpow_natCast]
    push_cast
    ring

/-- The point stands before the digits, with zeros between it and them. -/
theorem exists_numeral_pointBefore (h : d.Proper) {k : ℕ} (hk : d.exponent + 1 = -k) :
    ∃ n, numeral? (['0', '.'] ++ List.replicate k '0' ++ d.digits) = some n ∧
      n.value = d.value := by
  obtain ⟨n, hread, hvalue⟩ := exists_numeral_point ['0'] (List.replicate k '0' ++ d.digits)
    (k + 1) 0 h (by simp [List.replicate_succ]) rfl (by simp [h.nonempty])
    (show ∀ c ∈ [].head?, isDigit c = false by simp) rfl (by simp; omega)
  exact ⟨n, by simpa using hread, hvalue⟩

/-- The point stands behind the digits, with zeros between them and it. -/
theorem exists_numeral_pointBehind (h : d.Proper) {k : ℕ}
    (hk : d.exponent + 1 = d.digits.length + k) :
    ∃ n, numeral? (d.digits ++ List.replicate k '0' ++ ['.'] ++ ['0']) = some n ∧
      n.value = d.value := by
  have hwhole : isWhole (d.digits ++ List.replicate k '0') = true := by
    refine isWhole_of_leading (List.append_ne_nil_of_left_ne_nil h.nonempty _) ?_
    rw [List.head?_append_of_ne_nil _ h.nonempty]
    exact h.leading
  obtain ⟨n, hread, hvalue⟩ := exists_numeral_point (d.digits ++ List.replicate k '0') ['0']
    0 (k + 1) h (by simp [List.replicate_succ']) hwhole (by simp)
    (show ∀ c ∈ [].head?, isDigit c = false by simp) rfl (by simp; omega)
  exact ⟨n, by simpa using hread, hvalue⟩

/-- The point stands between two digits. -/
theorem exists_numeral_pointBetween (h : d.Proper) {places : ℕ} (hplaces : d.exponent + 1 = places)
    (hfirst : 0 < places) (hlast : places < d.digits.length) :
    ∃ n, numeral? (d.digits.take places ++ ['.'] ++ d.digits.drop places) = some n ∧
      n.value = d.value := by
  have hwhole : isWhole (d.digits.take places) = true := by
    refine isWhole_of_leading (by simp [h.nonempty, hfirst.ne']) ?_
    rw [List.head?_take, if_neg hfirst.ne']
    exact h.leading
  obtain ⟨n, hread, hvalue⟩ := exists_numeral_point (d.digits.take places)
    (d.digits.drop places) 0 0 h (by simp) hwhole (by simpa using hlast)
    (show ∀ c ∈ [].head?, isDigit c = false by simp) rfl (by simp; omega)
  exact ⟨n, by simpa using hread, hvalue⟩

/-- **A decimal that is written out** is read back, wherever the point stands. -/
theorem exists_numeral_writePositional (h : d.Proper) :
    ∃ n, numeral? (NumberStyle.writePositional d) = some n ∧ n.value = d.value := by
  unfold NumberStyle.writePositional
  split
  case isTrue hneg => exact exists_numeral_pointBefore h (by omega)
  case isFalse hnonneg =>
    dsimp only
    by_cases hshort : d.digits.length ≤ d.exponent.toNat + 1
    · rw [List.take_of_length_le hshort, List.drop_of_length_le hshort]
      exact exists_numeral_pointBehind h (by omega)
    · have hlast : d.exponent.toNat + 1 < d.digits.length := Nat.not_le.mp hshort
      have hzeros : d.exponent.toNat + 1 - d.digits.length = 0 := by omega
      have hfull : (d.digits.drop (d.exponent.toNat + 1)).isEmpty = false := by simpa using hlast
      rw [hzeros, hfull, List.replicate_zero, List.append_nil]
      exact exists_numeral_pointBetween h (by omega) (Nat.succ_pos _) hlast

/-- **A decimal with an exponent** is read back. -/
theorem exists_numeral_writeScientific (h : d.Proper) :
    ∃ n, numeral? (NumberStyle.writeScientific true d) = some n ∧ n.value = d.value := by
  obtain ⟨digits, exponent⟩ := d
  obtain ⟨c, digits, rfl⟩ := List.exists_cons_of_ne_nil h.nonempty
  have hexponent := exponent?_write exponent
  have hmark : ∀ sign digits, ∀ c ∈ ('e' :: sign :: digits : List Char).head?,
      isDigit c = false := by
    rintro sign digits c ⟨⟩
    rfl
  have hwhole : isWhole [c] = true := isWhole_of_leading (by simp) (by simpa using h.leading)
  have hsign : (if exponent < 0 then ['-'] else if true then ['+'] else []) =
      [if exponent < 0 then '-' else '+'] := by
    split <;> rfl
  unfold NumberStyle.writeScientific
  dsimp only
  rw [hsign]
  cases digits with
  | nil =>
    have hread := numeral?_append hwhole h.digits
      (hmark (if exponent < 0 then '-' else '+') (Nat.toDigits 10 exponent.natAbs))
    rw [fraction?_mark, hexponent] at hread
    refine ⟨⟨digitsValue [c], exponent⟩, by simpa using hread, ?_⟩
    simp [Scientific.value, Decimal.value]
  | cons c' digits =>
    obtain ⟨n, hread, hvalue⟩ := exists_numeral_point [c] (c' :: digits) 0 0 h (by simp) hwhole
      (by simp) (hmark _ _) hexponent (by simp; omega)
    exact ⟨n, by simpa using hread, hvalue⟩

/-- What is written for a finite number is a numeral to which the number is nearest. -/
theorem exists_numeral_write {x : Binary64} (hx : x.isInfinite = false) :
    ∃ n, numeral? (NumberStyle.json.write x).toList = some n ∧
      Binary64.Nearest x.word n.value := by
  unfold NumberStyle.write
  rw [if_neg (by simp [hx])]
  split
  case isTrue hzero =>
    have hvalue : (Scientific.value ⟨0, -1⟩) = 0 := by simp [Scientific.value]
    refine ⟨⟨0, -1⟩, by decide, ?_⟩
    rw [hvalue, hzero]
    exact Binary64.nearest_zero
  case isFalse hpos =>
    have hword : 0 < x.word := Nat.pos_of_ne_zero hpos
    obtain ⟨d, e, hdecimal, hnearest⟩ := Shortest.exists_ofWord NumberStyle.json.tie hword
    have hd : 0 < d := by
      have hpositive := hnearest.pos hword
      refine Nat.pos_of_ne_zero ?_
      rintro rfl
      simp at hpositive
    have hproper := Shortest.proper_decimalOf hd e
    dsimp only
    rw [hdecimal, String.toList_ofList]
    rw [← Shortest.value_decimalOf] at hnearest
    split
    · obtain ⟨n, hread, hvalue⟩ := exists_numeral_writePositional hproper
      exact ⟨n, hread, hvalue ▸ hnearest⟩
    · obtain ⟨n, hread, hvalue⟩ := exists_numeral_writeScientific hproper
      exact ⟨n, hread, hvalue ▸ hnearest⟩

/-- **A finite number is read back.** -/
theorem numeral?_write {x : Binary64} (hx : x.isInfinite = false) :
    ∃ n, numeral? (NumberStyle.json.write x).toList = some n ∧ n.toBinary64 = x := by
  obtain ⟨n, hread, hnearest⟩ := exists_numeral_write hx
  exact ⟨n, hread, by rw [Scientific.toBinary64_of_nearest hnearest, Binary64.ofWord_word]⟩

end Json

end LoxTokenizer
