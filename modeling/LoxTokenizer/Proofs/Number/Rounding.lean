import LoxTokenizer.Number.Binary64
import Mathlib.Algebra.Order.Field.Rat
import Mathlib.Tactic.Linarith
import Mathlib.Tactic.Positivity
import Mathlib.Tactic.Ring

/-!
# Rounding to the nearest number

A quotient is rounded by cutting and rounding bits. Here the result is told by the values alone: the
words are in the order of their values, and a word is nearest to a rational number if that is within
the stretch from the middle to the value below up to the middle to the value above. A number in the
middle of two values belongs to the even word of the two.

* `exists_significand`: a word as a significand and a shift.
* `unitsOf_strictMono`: the values of the words grow.
* `unitsOf_lt_width`: how far apart they are.
* `Nearest word q`: `word` is nearest to `q`.
* `Nearest.mono`: the nearest words are in the order of the numbers. **`Nearest.unique`**: a number
  has one nearest word.
* **`exists_nearest`**: `ofQuotient` gives it.
-/

namespace LoxTokenizer.Binary64

variable {word other num den : ℕ} {q r : ℚ}

/-! ## The values of the words -/

theorem unitsOf_eq {m shift : ℕ} (low : shift = 0 ∨ hiddenBit ≤ m) (high : m ≤ 2 * hiddenBit) :
    unitsOf (shift * hiddenBit + m) = m * 2 ^ shift := by
  by_cases hm : m < 2 * hiddenBit
  · rw [unitsOf_significand low hm, Nat.shiftLeft_eq]
  · -- The significand of the next power of two is the least one of the next shift.
    obtain rfl : m = 2 * hiddenBit := Nat.le_antisymm high (Nat.not_lt.mp hm)
    have hword : shift * hiddenBit + 2 * hiddenBit = (shift + 1) * hiddenBit + hiddenBit := by ring
    have hvalue : unitsOf ((shift + 1) * hiddenBit + hiddenBit) = hiddenBit <<< (shift + 1) :=
      unitsOf_significand (Or.inr (Nat.le_refl hiddenBit)) (by decide)
    rw [hword, hvalue, Nat.shiftLeft_eq, Nat.pow_succ']
    ring

/-- **A word is a significand and a shift**, and so is the next one. -/
theorem exists_significand (word : ℕ) : ∃ shift m, word = shift * hiddenBit + m ∧
    (shift = 0 ∨ hiddenBit ≤ m) ∧ m < 2 * hiddenBit ∧ unitsOf word = m * 2 ^ shift ∧
      unitsOf (word + 1) = (m + 1) * 2 ^ shift := by
  obtain ⟨shift, m, rfl, low, high⟩ : ∃ shift m, word = shift * hiddenBit + m ∧
      (shift = 0 ∨ hiddenBit ≤ m) ∧ m < 2 * hiddenBit := by
    by_cases hsmall : word < hiddenBit
    · exact ⟨0, word, by omega, Or.inl rfl, by omega⟩
    · refine ⟨word / hiddenBit - 1, hiddenBit + word % hiddenBit, ?_, Or.inr ?_, ?_⟩ <;>
        unfold hiddenBit at * <;> omega
  have hnext := unitsOf_eq (m := m + 1) (low.imp_right Nat.le_succ_of_le) high
  rw [← Nat.add_assoc] at hnext
  exact ⟨shift, m, rfl, low, high, unitsOf_eq low (Nat.le_of_lt high), hnext⟩

theorem unitsOf_lt_succ (word : ℕ) : unitsOf word < unitsOf (word + 1) := by
  obtain ⟨shift, m, -, -, -, hvalue, hnext⟩ := exists_significand word
  rw [hvalue, hnext]
  exact Nat.mul_lt_mul_of_pos_right (Nat.lt_succ_self m) (Nat.two_pow_pos shift)

/-- **The values of the words grow.** -/
theorem unitsOf_strictMono : StrictMono unitsOf :=
  strictMono_nat_of_lt_succ unitsOf_lt_succ

/-- A value is less than `hiddenBit` times the way between the values around it. -/
theorem unitsOf_lt_width (hword : 0 < word) :
    unitsOf word + hiddenBit * unitsOf (word - 1) < hiddenBit * unitsOf (word + 1) := by
  obtain ⟨shift, m, rfl, low, high, hvalue, hnext⟩ := exists_significand word
  have hpos := Nat.two_pow_pos shift
  rw [hvalue, hnext]
  by_cases hleast : shift ≠ 0 ∧ m = hiddenBit
  · -- The value below is any smaller one: already the way up is long enough.
    have hbelow := unitsOf_strictMono (Nat.sub_lt hword Nat.one_pos)
    rw [hvalue] at hbelow
    have hmul := Nat.mul_lt_mul_of_pos_left hbelow (show 0 < hiddenBit by decide)
    rw [hleast.2] at hmul ⊢
    linarith [Nat.add_one_mul hiddenBit (2 ^ shift)]
  · obtain ⟨k, rfl⟩ : ∃ k, m = k + 1 := by
      refine Nat.exists_eq_add_one_of_ne_zero ?_
      rintro rfl
      rcases low with rfl | hle
      · omega
      · exact absurd hle (by decide)
    have hbelow : unitsOf (shift * hiddenBit + k) = k * 2 ^ shift :=
      unitsOf_eq (by omega) (by omega)
    have hmul := Nat.mul_lt_mul_of_pos_right high hpos
    rw [← Nat.add_assoc, Nat.add_sub_cancel, hbelow]
    linarith

/-! ## The nearest word -/

/-- The value of a rational number in units. -/
def units (q : ℚ) : ℚ :=
  q * 2 ^ 1074

/-- **`word` is nearest to `q`**: twice `q` is between the sums of the word's value with the values
before and behind it, and is such a sum only for an even word. -/
structure Nearest (word : ℕ) (q : ℚ) : Prop where
  lower : (unitsOf (word - 1) + unitsOf word : ℚ) ≤ 2 * units q
  upper : 2 * units q ≤ (unitsOf word + unitsOf (word + 1) : ℚ)
  tie : 2 * units q = unitsOf (word - 1) + unitsOf word ∨
    2 * units q = unitsOf word + unitsOf (word + 1) → word % 2 = 0

theorem units_le_units_iff : units q ≤ units r ↔ q ≤ r :=
  mul_le_mul_iff_left₀ (by positivity)

/-- **The nearest words are in the order of the numbers.** -/
theorem Nearest.mono (h : Nearest word q) (h' : Nearest other r) (hqr : q ≤ r) : word ≤ other := by
  by_contra hlt
  have hle : other ≤ word - 1 := by omega
  have hlow : (unitsOf other : ℚ) ≤ unitsOf (word - 1) := by
    exact_mod_cast unitsOf_strictMono.monotone hle
  have hhigh : (unitsOf (other + 1) : ℚ) ≤ unitsOf word := by
    exact_mod_cast unitsOf_strictMono.monotone (show other + 1 ≤ word by omega)
  have hlower := h.lower
  have hupper := h'.upper
  have hunits := units_le_units_iff.mpr hqr
  -- The bound between the two words is met from both sides, so that they are neighbours in a tie.
  have htie : 2 * units q = unitsOf (word - 1) + unitsOf word := by linarith
  have htie' : 2 * units r = unitsOf other + unitsOf (other + 1) := by linarith
  have hword : unitsOf word = unitsOf (other + 1) := by
    have heq : (unitsOf word : ℚ) = unitsOf (other + 1) := by linarith
    exact_mod_cast heq
  have hneighbour : word = other + 1 := unitsOf_strictMono.injective hword
  have heven := h.tie (Or.inl htie)
  have heven' := h'.tie (Or.inr htie')
  omega

/-- **There is one nearest word.** -/
theorem Nearest.unique (h : Nearest word q) (h' : Nearest other q) : word = other :=
  Nat.le_antisymm (h.mono h' le_rfl) (h'.mono h le_rfl)

/-- A number that is no greater than the value of the word is near to it if it is beyond the
middle. -/
theorem nearest_of_le (hle : units q ≤ unitsOf word)
    (hbeyond : (unitsOf (word - 1) + unitsOf word : ℚ) < 2 * units q) : Nearest word q := by
  have hnext : (unitsOf word : ℚ) < unitsOf (word + 1) := by exact_mod_cast unitsOf_lt_succ word
  refine ⟨hbeyond.le, by linarith, ?_⟩
  rintro (htie | htie) <;> linarith

/-- A number that is greater than the value of the word is near to it if it is before the
middle. -/
theorem nearest_of_lt (hlt : unitsOf word < units q)
    (hbefore : 2 * units q < (unitsOf word + unitsOf (word + 1) : ℚ)) : Nearest word q := by
  have hprevious : (unitsOf (word - 1) : ℚ) ≤ unitsOf word := by
    exact_mod_cast unitsOf_strictMono.monotone (Nat.sub_le word 1)
  refine ⟨by linarith, hbefore.le, ?_⟩
  rintro (htie | htie) <;> linarith

theorem Nearest.pos (hword : 0 < word) (h : Nearest word q) : 0 < q := by
  have hvalue : (0 : ℚ) < unitsOf word := by
    exact_mod_cast (Nat.zero_le _).trans_lt (unitsOf_strictMono hword)
  have hprevious : (0 : ℚ) ≤ unitsOf (word - 1) := Nat.cast_nonneg _
  have hunits : 0 < units q := by linarith [h.lower]
  exact pos_of_mul_pos_left hunits (by positivity)

theorem nearest_zero : Nearest 0 0 := by
  have hzero : units 0 = 0 := zero_mul _
  refine ⟨?_, ?_, fun _ => rfl⟩
  · rw [hzero]
    simp [unitsOf, hiddenBit]
  · rw [hzero, mul_zero]
    positivity

/-! ## Rounding a quotient -/

theorem isInfinite_iff {x : Binary64} : x.isInfinite = true ↔ x = infinity := by
  obtain ⟨word, hword⟩ := x
  simp [isInfinite, infinity]

theorem ofWord_word (x : Binary64) : ofWord x.word = x := by
  obtain ⟨word, hword⟩ := x
  simp [ofWord, hword]

/-- The quotient is no more than half from what it is rounded to, and half only from an even
number. -/
theorem roundHalfEven_spec (num : ℕ) (hden : 0 < den) :
    2 * (roundHalfEven num den * den) ≤ 2 * num + den ∧
      2 * num ≤ 2 * (roundHalfEven num den * den) + den ∧
      (2 * (roundHalfEven num den * den) = 2 * num + den ∨
        2 * num = 2 * (roundHalfEven num den * den) + den → roundHalfEven num den % 2 = 0) := by
  have hmod := Nat.mod_lt num hden
  have hdiv := Nat.div_add_mod num den
  rw [Nat.mul_comm] at hdiv
  unfold roundHalfEven
  dsimp only
  split
  · omega
  · split
    · rw [Nat.add_one_mul (num / den) den]
      omega
    · rcases Nat.mod_two_eq_zero_or_one (num / den) with h | h
      · rw [h, Nat.add_zero]
        omega
      · rw [h, Nat.add_one_mul (num / den) den]
        omega

theorem roundHalfEven_le {a : ℕ} (hden : 0 < den) (h : num < a * den) :
    roundHalfEven num den ≤ a := by
  by_contra hlt
  have hmul := Nat.mul_le_mul_right den (Nat.not_le.mp hlt)
  have hspec := (roundHalfEven_spec num hden).1
  rw [Nat.succ_mul] at hmul
  linarith

theorem le_roundHalfEven {a : ℕ} (hden : 0 < den) (h : a * den ≤ num) :
    a ≤ roundHalfEven num den := by
  by_contra hlt
  have hmul := Nat.mul_le_mul_right den (Nat.not_le.mp hlt)
  have hspec := (roundHalfEven_spec num hden).2.1
  rw [Nat.succ_mul] at hmul
  linarith

/-- The bits that are cut leave a significand. -/
theorem shift_bounds (num : ℕ) (hden : 0 < den) :
    num < 2 * hiddenBit * (den * 2 ^ (Nat.log2 (num / den) - 52)) ∧
      (Nat.log2 (num / den) - 52 = 0 ∨
        hiddenBit * (den * 2 ^ (Nat.log2 (num / den) - 52)) ≤ num) := by
  have hdiv : num < (num / den + 1) * den := Nat.lt_mul_of_div_lt (Nat.lt_succ_self _) hden
  have hle : num / den * den ≤ num := Nat.div_mul_le_self num den
  have hlog : num / den < 2 ^ (Nat.log2 (num / den) + 1) := Nat.lt_log2_self
  generalize hs : Nat.log2 (num / den) - 52 = shift
  constructor
  · have hpow : 2 ^ (Nat.log2 (num / den) + 1) ≤ 2 ^ (53 + shift) :=
      Nat.pow_le_pow_right (by decide) (by omega)
    have hquot : num / den + 1 ≤ 2 * hiddenBit * 2 ^ shift := by
      have hsplit : 2 ^ (53 + shift) = 2 * hiddenBit * 2 ^ shift := by rw [Nat.pow_add]; rfl
      omega
    calc num < (num / den + 1) * den := hdiv
      _ ≤ 2 * hiddenBit * 2 ^ shift * den := Nat.mul_le_mul_right den hquot
      _ = 2 * hiddenBit * (den * 2 ^ shift) := by ring
  · by_cases hzero : shift = 0
    · exact Or.inl hzero
    · have hpos : num / den ≠ 0 := by
        intro h
        rw [h] at hs
        simp at hs
        omega
      have hlow : 2 ^ (52 + shift) ≤ num / den := by
        have hself := Nat.log2_self_le hpos
        rwa [show Nat.log2 (num / den) = 52 + shift by omega] at hself
      have hsplit : 2 ^ (52 + shift) = hiddenBit * 2 ^ shift := by rw [Nat.pow_add]; rfl
      refine Or.inr ?_
      calc hiddenBit * (den * 2 ^ shift) = hiddenBit * 2 ^ shift * den := by ring
        _ ≤ num / den * den := Nat.mul_le_mul_right den (hsplit ▸ hlow)
        _ ≤ num := hle

theorem cast_shiftLeft (n k : ℕ) : ((n <<< k : ℕ) : ℚ) = n * 2 ^ k := by
  rw [Nat.shiftLeft_eq, Nat.cast_mul, Nat.cast_pow, Nat.cast_ofNat]

theorem units_div (num den : ℕ) : units (num / den) = (num <<< 1074 : ℕ) / den := by
  rw [cast_shiftLeft]
  exact div_mul_eq_mul_div _ _ _

/-- What is nearest to a quotient, told without fractions. -/
theorem nearest_div_iff (hden : 0 < den) : Nearest word (num / den) ↔
    (unitsOf (word - 1) + unitsOf word) * den ≤ 2 * (num <<< 1074) ∧
      2 * (num <<< 1074) ≤ (unitsOf word + unitsOf (word + 1)) * den ∧
      (2 * (num <<< 1074) = (unitsOf (word - 1) + unitsOf word) * den ∨
        2 * (num <<< 1074) = (unitsOf word + unitsOf (word + 1)) * den → word % 2 = 0) := by
  have hpos : (0 : ℚ) < den := by exact_mod_cast hden
  have hle : ∀ a : ℕ, (a : ℚ) ≤ 2 * units (num / den) ↔ a * den ≤ 2 * (num <<< 1074) := by
    intro a
    rw [units_div, ← mul_div_assoc, le_div_iff₀ hpos]
    exact_mod_cast Iff.rfl
  have hge : ∀ a : ℕ, 2 * units (num / den) ≤ (a : ℚ) ↔ 2 * (num <<< 1074) ≤ a * den := by
    intro a
    rw [units_div, ← mul_div_assoc, div_le_iff₀ hpos]
    exact_mod_cast Iff.rfl
  have heq : ∀ a : ℕ, 2 * units (num / den) = (a : ℚ) ↔ 2 * (num <<< 1074) = a * den := by
    intro a
    rw [units_div, ← mul_div_assoc, div_eq_iff hpos.ne']
    exact_mod_cast Iff.rfl
  constructor
  · intro h
    have hlower := h.lower
    have hupper := h.upper
    have htie := h.tie
    rw [← Nat.cast_add] at hlower hupper
    rw [← Nat.cast_add, ← Nat.cast_add, heq, heq] at htie
    exact ⟨(hle _).mp hlower, (hge _).mp hupper, htie⟩
  · rintro ⟨hlower, hupper, htie⟩
    refine ⟨?_, ?_, ?_⟩
    · rw [← Nat.cast_add]
      exact (hle _).mpr hlower
    · rw [← Nat.cast_add]
      exact (hge _).mpr hupper
    · rw [← Nat.cast_add, ← Nat.cast_add, heq, heq]
      exact htie

/-- The value of a word and the one before it are a step of the shift apart, or less where the
significand is the least one of the shift. -/
theorem unitsOf_before {m shift : ℕ} (low : shift = 0 ∨ hiddenBit ≤ m) (high : m ≤ 2 * hiddenBit) :
    unitsOf (shift * hiddenBit + m - 1) + unitsOf (shift * hiddenBit + m) + 2 ^ shift =
        2 * m * 2 ^ shift ∨
      (m = 0 ∨ shift ≠ 0 ∧ m = hiddenBit) ∧
        unitsOf (shift * hiddenBit + m - 1) + unitsOf (shift * hiddenBit + m) ≤
          2 * m * 2 ^ shift := by
  have hvalue := unitsOf_eq low high
  by_cases hleast : m = 0 ∨ shift ≠ 0 ∧ m = hiddenBit
  · have hle := unitsOf_strictMono.monotone (Nat.sub_le (shift * hiddenBit + m) 1)
    refine Or.inr ⟨hleast, ?_⟩
    rw [hvalue] at hle ⊢
    rw [Nat.mul_assoc]
    omega
  · -- The word before has the significand before.
    have hbefore : unitsOf (shift * hiddenBit + (m - 1)) = (m - 1) * 2 ^ shift :=
      unitsOf_eq (by omega) (by omega)
    rw [Nat.add_sub_assoc (by omega), hbefore, hvalue]
    obtain ⟨k, rfl⟩ : ∃ k, m = k + 1 := ⟨m - 1, by omega⟩
    refine Or.inl ?_
    rw [Nat.add_sub_cancel]
    ring

/-- The value of the word behind is a step of the shift away, or two steps. -/
theorem unitsOf_behind {m shift : ℕ} (low : shift = 0 ∨ hiddenBit ≤ m) (high : m ≤ 2 * hiddenBit) :
    (2 * m + 1) * 2 ^ shift ≤
      unitsOf (shift * hiddenBit + m) + unitsOf (shift * hiddenBit + m + 1) := by
  have hvalue := unitsOf_eq low high
  by_cases hmax : m = 2 * hiddenBit
  · -- The word behind has a larger shift.
    have hword : shift * hiddenBit + m + 1 = (shift + 1) * hiddenBit + (hiddenBit + 1) := by
      rw [hmax]
      ring
    have hbehind : unitsOf ((shift + 1) * hiddenBit + (hiddenBit + 1)) =
        (hiddenBit + 1) * 2 ^ (shift + 1) :=
      unitsOf_eq (Or.inr (Nat.le_succ _)) (by decide)
    rw [hword, hbehind, hvalue, hmax, Nat.pow_succ]
    nlinarith [Nat.two_pow_pos shift]
  · have hbehind : unitsOf (shift * hiddenBit + (m + 1)) = (m + 1) * 2 ^ shift :=
      unitsOf_eq (by omega) (by omega)
    rw [Nat.add_assoc, hbehind, hvalue]
    exact Nat.le_of_eq (by ring)

/-- **Rounding a quotient gives the nearest word.** -/
theorem exists_nearest (num : ℕ) (hden : 0 < den) :
    ∃ word, ofQuotient num den = ofWord word ∧ Nearest word (num / den) := by
  refine ⟨_, rfl, (nearest_div_iff hden).mpr ?_⟩
  obtain ⟨hhigh, hlow⟩ := shift_bounds (num <<< 1074) hden
  generalize num <<< 1074 = scaled at *
  generalize Nat.log2 (scaled / den) - 52 = shift at *
  have hstep : 0 < den * 2 ^ shift := Nat.mul_pos hden (Nat.two_pow_pos shift)
  have hm := roundHalfEven_le hstep hhigh
  have hlow' := hlow.imp_right (le_roundHalfEven hstep)
  obtain ⟨hbelow, habove, htie⟩ := roundHalfEven_spec scaled hstep
  rw [Nat.shiftLeft_eq]
  generalize roundHalfEven scaled (den * 2 ^ shift) = m at *
  have heven : (shift * hiddenBit + m) % 2 = m % 2 := by
    unfold hiddenBit
    omega
  have hbehind := Nat.mul_le_mul_right den (unitsOf_behind hlow' hm)
  rw [heven]
  rcases unitsOf_before hlow' hm with heq | ⟨hleast, hle⟩
  · have heq' := congrArg (· * den) heq
    refine ⟨by linarith, by linarith, ?_⟩
    rintro (hsum | hsum)
    · exact htie (Or.inl (by linarith))
    · exact htie (Or.inr (by linarith))
  · -- The least significand of a shift, and zero, are even.
    have hparity : m % 2 = 0 := by
      rcases hleast with rfl | ⟨-, rfl⟩
      · rfl
      · rfl
    have hvalue : m * (den * 2 ^ shift) ≤ scaled := by
      rcases hleast with rfl | ⟨hshift, rfl⟩
      · simp
      · exact hlow.resolve_left hshift
    have hle' := Nat.mul_le_mul_right den hle
    exact ⟨by linarith, by linarith, fun _ => hparity⟩

/-- **A quotient is rounded to the word that is nearest to it.** -/
theorem ofQuotient_of_nearest (hden : 0 < den) (h : Nearest word (num / den)) :
    ofQuotient num den = ofWord word := by
  obtain ⟨other, hother, hnearest⟩ := exists_nearest num hden
  rw [hother, h.unique hnearest]

end LoxTokenizer.Binary64
