import LoxTokenizer.Number.Numeral
import LoxTokenizer.Proofs.Number.Rounding
import Mathlib.Algebra.Order.Field.Basic
import Mathlib.Order.WithBot

/-!
# Rounding, told by distances

The nearest word was told by the middles between neighbouring values. Here it is told by distances:
a rational number is rounded to a finite number than which no other one is nearer, and to one with
an even word if another one is as near; from the middle between the greatest finite value and the
next power of two on it is rounded to infinity.

* `Binary64.value`: what a number is worth.
* `Binary64.RoundsTo x q`: `x` is what `q` is rounded to.
* `Binary64.infinityWord_le_iff`: where rounding overflows.
* **`Binary64.roundsTo_ofWord`**: the nearest word is what is rounded to.
* **`Binary64.value_le_of_nearest`**: rounding keeps the order.
-/

namespace LoxTokenizer.Binary64

variable {word other : ℕ} {q r : ℚ} {x y : Binary64}

/-! ## What a number is worth -/

/-- The value of a finite number. -/
def toRat (x : Binary64) : ℚ :=
  unitsOf x.word / 2 ^ 1074

/-- The value of a number, of infinity as well. -/
def value (x : Binary64) : WithTop ℚ :=
  if x.isInfinite then ⊤ else (x.toRat : WithTop ℚ)

theorem value_nonneg (x : Binary64) : 0 ≤ x.value := by
  unfold value
  split
  · exact le_top
  · rw [← WithTop.coe_zero, WithTop.coe_le_coe]
    unfold toRat
    positivity

/-- **`x` is what `q` is rounded to.** -/
structure RoundsTo (x : Binary64) (q : ℚ) : Prop where
  infinite_iff : x.isInfinite = true ↔ 2 ^ 1024 - 2 ^ 970 ≤ q
  nearest : x.isInfinite = false → ∀ y : Binary64, y.isInfinite = false →
    |x.toRat - q| ≤ |y.toRat - q|
  tie : x.isInfinite = false → ∀ y : Binary64, y.isInfinite = false →
    |x.toRat - q| = |y.toRat - q| → y = x ∨ x.word % 2 = 0

/-! ## Overflow -/

/-- The middle of the greatest finite value and the next power of two. -/
theorem units_overflow : 2 * units (2 ^ 1024 - 2 ^ 970) =
    unitsOf (infinityWord - 1) + unitsOf infinityWord := by
  have hlast : unitsOf (2045 * hiddenBit + (2 * hiddenBit - 1)) =
      (2 * hiddenBit - 1) * 2 ^ 2045 :=
    unitsOf_eq (.inr (by decide)) (by decide)
  have hnext : unitsOf (2045 * hiddenBit + 2 * hiddenBit) = 2 * hiddenBit * 2 ^ 2045 :=
    unitsOf_eq (.inr (by decide)) (by decide)
  have hword : infinityWord = 2045 * hiddenBit + 2 * hiddenBit := by decide
  have hbefore : infinityWord - 1 = 2045 * hiddenBit + (2 * hiddenBit - 1) := by decide
  rw [hbefore, hlast, hword, hnext]
  have hlarge : (2 : ℚ) ^ 1024 = 2 ^ 54 * 2 ^ 970 := by rw [← pow_add]
  have hstep : (2 : ℚ) ^ 2045 = 2 * (2 ^ 970 * 2 ^ 1074) := by rw [← pow_add, ← pow_succ']
  have hsignificand : ((2 * hiddenBit - 1 : ℕ) : ℚ) = 2 ^ 53 - 1 := by norm_num [hiddenBit]
  have hcarried : ((2 * hiddenBit : ℕ) : ℚ) = 2 ^ 53 := by norm_num [hiddenBit]
  unfold units
  rw [Nat.cast_mul, Nat.cast_mul, Nat.cast_pow, Nat.cast_ofNat, hsignificand, hcarried, hstep,
    hlarge]
  generalize (2 : ℚ) ^ 970 = large
  generalize (2 : ℚ) ^ 1074 = unit
  ring

/-- **Where rounding overflows**: in the middle the even word is that of infinity. -/
theorem infinityWord_le_iff (h : Nearest word q) :
    infinityWord ≤ word ↔ 2 ^ 1024 - 2 ^ 970 ≤ q := by
  have hmono := unitsOf_strictMono.monotone
  rw [← units_le_units_iff]
  have hmiddle := units_overflow
  generalize units (2 ^ 1024 - 2 ^ 970) = middle at *
  constructor
  · intro hle
    have hbefore : (unitsOf (infinityWord - 1) : ℚ) ≤ unitsOf (word - 1) := by
      exact_mod_cast hmono (Nat.sub_le_sub_right hle 1)
    have hword : (unitsOf infinityWord : ℚ) ≤ unitsOf word := by exact_mod_cast hmono hle
    linarith [h.lower]
  · intro hle
    by_contra hlt
    have hword : (unitsOf word : ℚ) ≤ unitsOf (infinityWord - 1) := by
      exact_mod_cast hmono (Nat.le_sub_one_of_lt (Nat.not_le.mp hlt))
    have hnext : (unitsOf (word + 1) : ℚ) ≤ unitsOf infinityWord := by
      exact_mod_cast hmono (Nat.not_le.mp hlt)
    -- The bound is met from both sides, by an odd word.
    have hupper := h.upper
    have heven := h.tie (.inr (by linarith))
    have heq : unitsOf (word + 1) = unitsOf infinityWord := by
      have hcast : (unitsOf (word + 1) : ℚ) = unitsOf infinityWord := by linarith
      exact_mod_cast hcast
    have hlast : word + 1 = infinityWord := unitsOf_strictMono.injective heq
    have hodd : infinityWord % 2 = 0 := rfl
    omega

/-! ## Distances -/

/-- The nearer of two numbers is told by the middle between them. -/
theorem abs_sub_le_of_middle_le {a b u : ℚ} (hab : a < b) (h : a + b ≤ 2 * u) :
    |b - u| ≤ |a - u| ∧ (|b - u| = |a - u| → a + b = 2 * u) := by
  have ha : |a - u| = u - a := by
    rw [abs_sub_comm]
    exact abs_of_nonneg (by linarith)
  rw [ha]
  refine ⟨abs_le.mpr ⟨by linarith, by linarith⟩, fun heq => ?_⟩
  rcases eq_or_eq_neg_of_abs_eq heq with h' | h' <;> linarith

theorem abs_sub_le_of_le_middle {a b u : ℚ} (hab : a < b) (h : 2 * u ≤ a + b) :
    |a - u| ≤ |b - u| ∧ (|a - u| = |b - u| → a + b = 2 * u) := by
  have hb : |b - u| = b - u := abs_of_nonneg (by linarith)
  rw [hb]
  refine ⟨abs_le.mpr ⟨by linarith, by linarith⟩, fun heq => ?_⟩
  rcases eq_or_eq_neg_of_abs_eq heq with h' | h' <;> linarith

/-- **No value is nearer** than that of the nearest word, and one as near is that of an odd word. -/
theorem Nearest.abs_le (h : Nearest word q) (other : ℕ) :
    |(unitsOf word : ℚ) - units q| ≤ |(unitsOf other : ℚ) - units q| ∧
      (|(unitsOf word : ℚ) - units q| = |(unitsOf other : ℚ) - units q| →
        other = word ∨ word % 2 = 0) := by
  have hmono := unitsOf_strictMono.monotone
  rcases Nat.lt_trichotomy other word with hlt | rfl | hlt
  · have hvalue : (unitsOf other : ℚ) < unitsOf word := by exact_mod_cast unitsOf_strictMono hlt
    have hbefore : (unitsOf other : ℚ) ≤ unitsOf (word - 1) := by
      exact_mod_cast hmono (Nat.le_sub_one_of_lt hlt)
    have hmiddle : (unitsOf other + unitsOf word : ℚ) ≤ 2 * units q := by linarith [h.lower]
    obtain ⟨hle, htie⟩ := abs_sub_le_of_middle_le hvalue hmiddle
    refine ⟨hle, fun heq => .inr (h.tie (.inl ?_))⟩
    linarith [h.lower, htie heq]
  · exact ⟨le_rfl, fun _ => .inl rfl⟩
  · have hvalue : (unitsOf word : ℚ) < unitsOf other := by exact_mod_cast unitsOf_strictMono hlt
    have hnext : (unitsOf (word + 1) : ℚ) ≤ unitsOf other := by exact_mod_cast hmono hlt
    have hmiddle : 2 * units q ≤ (unitsOf word + unitsOf other : ℚ) := by linarith [h.upper]
    obtain ⟨hle, htie⟩ := abs_sub_le_of_le_middle hvalue hmiddle
    refine ⟨hle, fun heq => .inr (h.tie (.inr ?_))⟩
    linarith [h.upper, htie heq]

theorem abs_toRat_sub (x : Binary64) (q : ℚ) :
    |x.toRat - q| = |(unitsOf x.word : ℚ) - units q| / 2 ^ 1074 := by
  have hunit : (0 : ℚ) < 2 ^ 1074 := by positivity
  unfold toRat units
  generalize (2 : ℚ) ^ 1074 = unit at *
  rw [← abs_of_pos hunit, ← abs_div, abs_of_pos hunit, sub_div, mul_div_cancel_right₀ q hunit.ne']

theorem isInfinite_ofWord : (ofWord word).isInfinite = true ↔ infinityWord ≤ word := by
  unfold isInfinite ofWord
  simp

/-- **The nearest word is what is rounded to.** -/
theorem roundsTo_ofWord (h : Nearest word q) : (ofWord word).RoundsTo q := by
  have hfinite (hword : (ofWord word).isInfinite = false) : (ofWord word).word = word := by
    rw [← Bool.not_eq_true, isInfinite_ofWord, Nat.not_le] at hword
    exact Nat.min_eq_left hword.le
  have hunit : (0 : ℚ) < 2 ^ 1074 := by positivity
  refine ⟨isInfinite_ofWord.trans (infinityWord_le_iff h), ?_, ?_⟩
  · intro hword y _
    rw [abs_toRat_sub, abs_toRat_sub, hfinite hword]
    exact div_le_div_of_nonneg_right (h.abs_le y.word).1 hunit.le
  · intro hword y _ heq
    rw [abs_toRat_sub, abs_toRat_sub, div_left_inj' hunit.ne', hfinite hword] at heq
    rw [hfinite hword]
    refine ((h.abs_le y.word).2 heq).imp_left fun hsame => ?_
    rw [← ofWord_word y, hsame]

/-! ## Order -/

theorem word_lt_of_finite (h : x.isInfinite = false) : x.word < infinityWord := by
  refine lt_of_le_of_ne x.word_le fun heq => ?_
  simp [isInfinite, heq] at h

/-- The words are in the order of the values. -/
theorem value_le_value_iff : x.value ≤ y.value ↔ x.word ≤ y.word := by
  have hunit : (0 : ℚ) < 2 ^ 1074 := by positivity
  unfold value
  cases hy : y.isInfinite with
  | true =>
    rw [if_pos rfl, isInfinite_iff.mp hy]
    exact iff_of_true le_top x.word_le
  | false =>
    have hword := word_lt_of_finite hy
    rw [if_neg Bool.false_ne_true]
    cases hx : x.isInfinite with
    | true =>
      rw [if_pos rfl, isInfinite_iff.mp hx]
      exact iff_of_false (WithTop.not_top_le_coe _) (Nat.not_le.mpr hword)
    | false =>
      rw [if_neg Bool.false_ne_true, WithTop.coe_le_coe]
      unfold toRat
      rw [div_le_div_iff_of_pos_right hunit, Nat.cast_le]
      exact unitsOf_strictMono.le_iff_le

/-- **Rounding keeps the order.** -/
theorem value_le_of_nearest (h : Nearest word q) (h' : Nearest other r) (hqr : q ≤ r) :
    (ofWord word).value ≤ (ofWord other).value :=
  value_le_value_iff.mpr (min_le_min_right infinityWord (h.mono h' hqr))

end LoxTokenizer.Binary64
