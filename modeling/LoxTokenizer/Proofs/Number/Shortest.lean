import LoxTokenizer.Number.Shortest
import LoxTokenizer.Proofs.Number.Rounding
import Mathlib.Algebra.Order.Field.Power
import Mathlib.Data.Nat.Digits.Lemmas
import Mathlib.Tactic.FieldSimp

/-!
# The search for the shortest decimal succeeds

The search for the shortest decimal stops at seventeen digits. That is enough: on the grid of
decimals with so many digits a step is shorter than the stretch of values that round to a number, so
one of the number's two neighbours on the grid is in the stretch. Whichever grid wins, what it
offers is in the stretch.

* `units_leadingExponent_le`: the leading digit stands for no more than the number.
* `Grid.roundTrips_iff`: the decimals in the stretch are those to which the number is nearest.
* `exists_candidate`: a fine grid offers a decimal.
* **`exists_ofWord`**: the search finds a decimal to which the number is nearest.
-/

namespace LoxTokenizer.Shortest

open Binary64 (unitsOf units Nearest)

variable {word d : ℕ} {e : ℤ} {tie : Tie}

/-! ## The leading digit -/

theorem pow_length_toDigits_le {n : ℕ} (h : 0 < n) :
    10 ^ ((Nat.toDigits 10 n).length - 1) ≤ n := by
  by_cases hone : (Nat.toDigits 10 n).length - 1 = 0
  · rw [hone]
    exact h
  · by_contra hlt
    have hle := (Nat.length_toDigits_le_iff (by decide) (Nat.pos_of_ne_zero hone)).mpr
      (Nat.not_le.mp hlt)
    omega

theorem two_pow_le {a k : ℕ} (h : a ≤ 3 * k) : 2 ^ a ≤ 10 ^ k :=
  calc 2 ^ a ≤ 2 ^ (3 * k) := Nat.pow_le_pow_right (by decide) h
    _ = (2 ^ 3) ^ k := Nat.pow_mul 2 3 k
    _ ≤ 10 ^ k := Nat.pow_le_pow_left (by decide) k

/-- A number that is scaled up to at least one has a digit for each place of its whole part. -/
theorem zpow_length_toDigits_le {a k u : ℕ} (hone : 2 ^ a ≤ 10 ^ k) (hu : 0 < u) :
    (10 : ℚ) ^ (((Nat.toDigits 10 ((u * Nat.pow 10 k) >>> a)).length : ℤ) - (k + 1)) * 2 ^ a ≤
      u := by
  rw [Nat.shiftRight_eq_div_pow, Nat.pow_eq]
  have hwhole : 0 < u * 10 ^ k / 2 ^ a :=
    Nat.div_pos (hone.trans (Nat.le_mul_of_pos_left _ hu)) (Nat.two_pow_pos a)
  have hdigits := Nat.mul_le_mul_right (2 ^ a) (pow_length_toDigits_le hwhole)
  have hlength : 1 ≤ (Nat.toDigits 10 (u * 10 ^ k / 2 ^ a)).length :=
    List.length_pos_of_ne_nil Nat.toDigits_ne_nil
  obtain ⟨l, hl⟩ := Nat.exists_eq_add_of_le' hlength
  have hle : 10 ^ l * 2 ^ a ≤ u * 10 ^ k := by
    rw [hl, Nat.add_sub_cancel] at hdigits
    exact hdigits.trans (Nat.div_mul_le_self _ _)
  have hcast : (10 : ℚ) ^ l * 2 ^ a ≤ u * 10 ^ k := by exact_mod_cast hle
  have hexponent : ((l + 1 : ℕ) : ℤ) - (k + 1) = l - k := by
    push_cast
    ring
  rw [hl, hexponent, zpow_sub₀ (by norm_num), zpow_natCast, zpow_natCast, div_mul_eq_mul_div]
  exact (div_le_iff₀ (by positivity)).mpr hcast

/-- **The leading digit** stands for no more than the number. -/
theorem units_leadingExponent_le {u : ℕ} (hu : 0 < u) : units (10 ^ leadingExponent u) ≤ u := by
  unfold leadingExponent
  rw [show (401 : ℤ) = ((400 : ℕ) : ℤ) + 1 from rfl]
  generalize hk : 400 = k
  exact zpow_length_toDigits_le (two_pow_le (by omega)) hu

/-! ## Grids -/

/-- A power of ten, made of one for each sign of the exponent. -/
theorem cast_pow_toNat (e : ℤ) :
    ((10 ^ e.toNat : ℕ) : ℚ) = (10 ^ (-e).toNat : ℕ) * (10 : ℚ) ^ e := by
  have hten : (10 : ℚ) ≠ 0 := by norm_num
  push_cast
  rw [← zpow_natCast, ← zpow_natCast, ← zpow_add₀ hten]
  exact congrArg _ (by omega)

/-- A multiple of a grid step, scaled as the grid scales its bounds. -/
theorem Grid.cast_mul_den (word d : ℕ) (e : ℤ) :
    ((2 * d * (Grid.of word e).den : ℕ) : ℚ) =
      2 * units (d * 10 ^ e) * (10 ^ (-e).toNat : ℕ) := by
  have hden : (((Grid.of word e).den : ℕ) : ℚ) = (10 ^ e.toNat : ℕ) * 2 ^ 1074 :=
    Binary64.cast_shiftLeft _ _
  rw [Nat.cast_mul, Nat.cast_mul, hden, cast_pow_toNat]
  unfold units
  generalize (2 : ℚ) ^ 1074 = unit
  push_cast
  ring

/-- A scaled bound is below a multiple of a grid step if it is below the decimal in units. -/
theorem Grid.le_mul_den_iff {a : ℕ} : a * 10 ^ (-e).toNat ≤ 2 * d * (Grid.of word e).den ↔
    (a : ℚ) ≤ 2 * units (d * 10 ^ e) := by
  rw [← Nat.cast_le (α := ℚ), Grid.cast_mul_den, Nat.cast_mul]
  exact mul_le_mul_iff_left₀ (by positivity)

theorem Grid.mul_den_le_iff {a : ℕ} : 2 * d * (Grid.of word e).den ≤ a * 10 ^ (-e).toNat ↔
    2 * units (d * 10 ^ e) ≤ (a : ℚ) := by
  rw [← Nat.cast_le (α := ℚ), Grid.cast_mul_den, Nat.cast_mul]
  exact mul_le_mul_iff_left₀ (by positivity)

theorem Grid.low_of (word : ℕ) (e : ℤ) :
    (Grid.of word e).low = (unitsOf (word - 1) + unitsOf word) * 10 ^ (-e).toNat := rfl

theorem Grid.high_of (word : ℕ) (e : ℤ) :
    (Grid.of word e).high = (unitsOf word + unitsOf (word + 1)) * 10 ^ (-e).toNat := rfl

theorem Grid.inclusive_of (word : ℕ) (e : ℤ) : (Grid.of word e).inclusive = (word % 2 == 0) := rfl

/-- **The decimals of a grid that round trip** are those to which the number is nearest. -/
theorem Grid.roundTrips_iff :
    (Grid.of word e).roundTrips d = true ↔ Nearest word (d * 10 ^ e) := by
  unfold Grid.roundTrips
  rw [Grid.inclusive_of, Grid.low_of, Grid.high_of]
  by_cases heven : word % 2 = 0
  · simp only [heven, BEq.rfl, if_true, Bool.and_eq_true, decide_eq_true_eq, Grid.le_mul_den_iff,
      Grid.mul_den_le_iff, Nat.cast_add]
    constructor
    · rintro ⟨hlower, hupper⟩
      exact ⟨hlower, hupper, fun _ => heven⟩
    · intro h
      exact ⟨h.lower, h.upper⟩
  · -- A number in the middle does not round to an odd word.
    simp only [beq_eq_false_iff_ne.mpr heven, Bool.false_eq_true, if_false, Bool.and_eq_true,
      decide_eq_true_eq, ← Nat.not_le, Grid.le_mul_den_iff, Grid.mul_den_le_iff, Nat.cast_add]
    rw [not_le, not_le]
    constructor
    · rintro ⟨hlower, hupper⟩
      refine ⟨hlower.le, hupper.le, ?_⟩
      rintro (htie | htie)
      · exact absurd htie hlower.ne'
      · exact absurd htie hupper.ne
    · intro h
      have htie := mt h.tie heven
      rw [not_or] at htie
      exact ⟨lt_of_le_of_ne h.lower (Ne.symm htie.1), lt_of_le_of_ne h.upper htie.2⟩

/-! ## What the search finds -/

theorem candidate?_eq_none {g : Grid} (h : g.candidate? tie = none) :
    g.roundTrips (g.num / g.den) = false ∧ g.roundTrips (g.num / g.den + 1) = false := by
  unfold Grid.candidate? at h
  dsimp only at h
  split at h
  · next hbelow habove => exact ⟨hbelow, habove⟩
  · cases h
  · cases h
  · -- Two neighbours in the stretch make a choice between them.
    split at h
    · cases h
    · split at h
      · cases h
      · cases tie <;> cases h

theorem shiftLeft_pos {n : ℕ} (h : 0 < n) (k : ℕ) : 0 < n <<< k := by
  rw [Nat.shiftLeft_eq]
  exact Nat.mul_pos h (Nat.two_pow_pos k)

/-- The neighbours of a number on a grid. -/
theorem Grid.units_quotient (word : ℕ) (e : ℤ) :
    units (((Grid.of word e).num / (Grid.of word e).den : ℕ) * 10 ^ e) ≤ unitsOf word ∧
      unitsOf word <
        units (((Grid.of word e).num / (Grid.of word e).den + 1 : ℕ) * 10 ^ e) := by
  have hscale : (0 : ℚ) < (10 ^ (-e).toNat : ℕ) := by positivity
  have hnum : (Grid.of word e).num = unitsOf word * 10 ^ (-e).toNat := rfl
  have hden : 0 < (Grid.of word e).den := shiftLeft_pos (Nat.pow_pos (by decide)) 1074
  have hbelow := Nat.div_mul_le_self (Grid.of word e).num (Grid.of word e).den
  have habove := Nat.lt_div_mul_add hden (a := (Grid.of word e).num)
  rw [← Nat.add_one_mul] at habove
  have hvalue := fun d => Grid.cast_mul_den word d e
  generalize (Grid.of word e).num / (Grid.of word e).den = n at *
  constructor
  · have hle : 2 * n * (Grid.of word e).den ≤ 2 * unitsOf word * 10 ^ (-e).toNat := by
      rw [Nat.mul_assoc, Nat.mul_assoc, ← hnum]
      exact Nat.mul_le_mul_left 2 hbelow
    rw [← Nat.cast_le (α := ℚ), hvalue, Nat.cast_mul] at hle
    have hcancel := le_of_mul_le_mul_right hle hscale
    push_cast at hcancel
    linarith
  · have hlt : 2 * unitsOf word * 10 ^ (-e).toNat < 2 * (n + 1) * (Grid.of word e).den := by
      rw [Nat.mul_assoc, Nat.mul_assoc, ← hnum]
      exact Nat.mul_lt_mul_of_pos_left habove Nat.two_pos
    rw [← Nat.cast_lt (α := ℚ), hvalue, Nat.cast_mul] at hlt
    have hcancel := lt_of_mul_lt_mul_right hlt hscale.le
    rw [Nat.cast_mul, Nat.cast_ofNat] at hcancel
    linarith

/-- **A fine grid offers a decimal.** If both neighbours of the number missed the stretch that
rounds to it, the stretch would be shorter than a step of the grid. -/
theorem exists_candidate (tie : Tie) (hword : 0 < word)
    (hfine : 10 ^ 16 * units (10 ^ e) ≤ unitsOf word) :
    ∃ d, (Grid.of word e).candidate? tie = some d := by
  by_contra hnone
  obtain ⟨hbelow, habove⟩ := candidate?_eq_none (Option.eq_none_iff_forall_ne_some.mpr
    fun d hd => hnone ⟨d, hd⟩)
  obtain ⟨hle, hlt⟩ := Grid.units_quotient word e
  have hmiss : ∀ d, (Grid.of word e).roundTrips d = false → ¬ Nearest word (d * 10 ^ e) := by
    intro d hd h
    rw [Grid.roundTrips_iff.mpr h] at hd
    exact absurd hd (by decide)
  generalize (Grid.of word e).num / (Grid.of word e).den = n at *
  have hlower : 2 * units (n * 10 ^ e) ≤ unitsOf (word - 1) + unitsOf word :=
    not_lt.mp fun h => hmiss n hbelow (Binary64.nearest_of_le hle h)
  have hupper : (unitsOf word + unitsOf (word + 1) : ℚ) ≤ 2 * units ((n + 1 : ℕ) * 10 ^ e) :=
    not_lt.mp fun h => hmiss (n + 1) habove (Binary64.nearest_of_lt hlt h)
  have hstep : units ((n + 1 : ℕ) * 10 ^ e) = units (n * 10 ^ e) + units (10 ^ e) := by
    unfold units
    rw [Nat.cast_succ, add_mul, one_mul, add_mul]
  have hpositive : 0 ≤ units (10 ^ e) := by
    unfold units
    positivity
  have hwidth : (unitsOf word + 4503599627370496 * unitsOf (word - 1) : ℚ) <
      4503599627370496 * unitsOf (word + 1) := by
    exact_mod_cast Binary64.unitsOf_lt_width hword
  rw [hstep] at hupper
  linarith

/-- **The search finds a decimal** for every positive number, and the number is nearest to it. -/
theorem exists_ofWord (tie : Tie) (hword : 0 < word) :
    ∃ d e, ofWord tie word = decimalOf d e ∧ Nearest word (d * 10 ^ e) := by
  have hvalue : 0 < unitsOf word := (Nat.zero_le _).trans_lt (Binary64.unitsOf_strictMono hword)
  -- The last grid of the search is fine enough.
  have hfine : 10 ^ 16 * units (10 ^ (leadingExponent (unitsOf word) - (16 : ℕ))) ≤
      unitsOf word := by
    refine le_trans (le_of_eq ?_) (units_leadingExponent_le hvalue)
    unfold units
    generalize (2 : ℚ) ^ 1074 = unit
    rw [zpow_sub₀ (by norm_num), zpow_natCast]
    field_simp
  obtain ⟨last, hlast⟩ := exists_candidate tie hword hfine
  unfold ofWord
  dsimp only
  generalize hfound : (List.range 17).findSome? _ = found
  cases found with
  | none =>
    rw [List.findSome?_eq_none_iff] at hfound
    have hnone := hfound 16 (by decide)
    rw [hlast] at hnone
    cases hnone
  | some decimal =>
    obtain ⟨more, -, hmore⟩ := List.exists_of_findSome?_eq_some hfound
    obtain ⟨d, hd, rfl⟩ := Option.map_eq_some_iff.mp hmore
    exact ⟨d, _, rfl, Grid.roundTrips_iff.mp (candidate?_roundTrips hd)⟩

end LoxTokenizer.Shortest
