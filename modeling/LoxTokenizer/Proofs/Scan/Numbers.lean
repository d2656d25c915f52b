import LoxTokenizer.Proofs.Json.Numeral
import LoxTokenizer.Proofs.Number.Nearest
import LoxTokenizer.Proofs.Scan.FirstError
import Mathlib.Data.Nat.Digits.Lemmas

/-!
# The values of number tokens

A lexeme of digits, with a point among them or without, writes a rational number by the places of
its digits. The value of a number token is that number, rounded once: nothing else about the lexeme
or its source matters.

* `Numeral.Writes lexeme q`: the lexeme writes `q`.
* **`Numeral.exists_of_writes`**: such a lexeme is read, as a quotient that is `q`.
* `Numeral.Pads lexeme padded`: zeros are added that say nothing. `Numeral.Pads.writes`: they write
  the same number.
* `Token.IsNumber`: the number tokens of scans.
* **`number_tokens_rounded`**: the value of a number token is what its lexeme writes, rounded.
-/

namespace LoxTokenizer

open Lexeme Token CharClass

/-! ## What a lexeme writes -/

namespace Numeral

variable {lexeme padded digits whole fraction : List Char} {q r : ℚ} {n : Numeral}

/-- The value of a row of digits, by their places. -/
def placeValue (digits : List Char) : ℕ :=
  Nat.ofDigits 10 (digits.reverse.map digitValue)

/-- **The number that a lexeme writes.** -/
inductive Writes : List Char → ℚ → Prop where
  | whole {digits : List Char} (h : Digits digits) : Writes digits (placeValue digits)
  | decimal {whole fraction : List Char} (hw : Digits whole) (hf : Digits fraction) :
      Writes (whole ++ '.' :: fraction)
        (placeValue whole + placeValue fraction / 10 ^ fraction.length)

/-- The number that a numeral stands for. -/
def value (n : Numeral) : ℚ :=
  n.digits / 10 ^ n.places

/-- Reading digits from the left adds them up by their places. -/
theorem digitsValue_eq_placeValue (digits : List Char) :
    digitsValue digits = placeValue digits := by
  induction digits using List.reverseRecOn with
  | nil => rfl
  | append_singleton digits d ih =>
    unfold placeValue at ih ⊢
    rw [List.reverse_concat, List.map_cons, Nat.ofDigits_cons, ← ih, Nat.add_comm]
    exact List.foldl_concat _ _ _ _

theorem placeValue_append (high low : List Char) :
    placeValue (high ++ low) = 10 ^ low.length * placeValue high + placeValue low := by
  rw [← digitsValue_eq_placeValue, ← digitsValue_eq_placeValue, ← digitsValue_eq_placeValue,
    digitsValue_append]

theorem placeValue_zeros (k : ℕ) : placeValue (List.replicate k '0') = 0 := by
  rw [← digitsValue_eq_placeValue, digitsValue_zeros]

/-- **A lexeme that writes a number is read**, as that number. -/
theorem exists_of_writes (h : Writes lexeme q) : ∃ n, read? lexeme = some n ∧ n.value = q := by
  cases h with
  | whole h =>
    refine ⟨_, read?_whole h, ?_⟩
    unfold value
    rw [digitsValue_eq_placeValue, pow_zero, div_one]
  | decimal hw hf =>
    refine ⟨_, read?_decimal hw hf, ?_⟩
    unfold value
    dsimp only
    rw [digitsValue_eq_placeValue, placeValue_append]
    push_cast
    field_simp

theorem Writes.unique (h : Writes lexeme q) (h' : Writes lexeme r) : q = r := by
  obtain ⟨n, hn, rfl⟩ := exists_of_writes h
  obtain ⟨n', hn', rfl⟩ := exists_of_writes h'
  rw [Option.some.inj (hn.symm.trans hn')]

/-- The lexemes of the number class write numbers. -/
theorem exists_writes (h : Spells .number lexeme) : ∃ q, Writes lexeme q := by
  generalize hkind : TokenKind.number = kind at h
  cases h with
  | whole h => exact ⟨_, .whole h⟩
  | decimal hw hf => exact ⟨_, .decimal hw hf⟩
  | punctuation h =>
    subst hkind
    unfold TokenKind.punctuation? at h
    split at h <;> cases h
  | operator h | operatorEqual h => cases h <;> cases hkind
  | comment | string => cases hkind
  | @word _ c rest hk =>
    have hword := wordKind_identifier_or_keyword (c :: rest)
    rw [hk, ← hkind] at hword
    exact absurd hword (by decide)

/-- A numeral is rounded once. -/
theorem nearest_toBinary64 (n : Numeral) :
    ∃ word, n.toBinary64 = Binary64.ofWord word ∧ Binary64.Nearest word n.value := by
  have hden : 0 < Nat.pow 10 n.places := Nat.pow_pos (by decide)
  obtain ⟨word, hword, hnearest⟩ := Binary64.exists_nearest n.digits hden
  refine ⟨word, hword, ?_⟩
  unfold value
  rw [Nat.pow_eq] at hnearest
  exact_mod_cast hnearest

/-! ## Zeros that say nothing -/

/-- **Zeros are added that say nothing**: in front of a lexeme, behind its fraction, or as the
fraction of a lexeme that has none. -/
inductive Pads : List Char → List Char → Prop where
  | front (k : ℕ) (lexeme : List Char) : Pads lexeme (List.replicate k '0' ++ lexeme)
  | behind (k : ℕ) {whole fraction : List Char} (hw : Digits whole) (hf : Digits fraction) :
      Pads (whole ++ '.' :: fraction) (whole ++ '.' :: (fraction ++ List.replicate k '0'))
  | fraction (k : ℕ) {whole : List Char} (hw : Digits whole) :
      Pads whole (whole ++ '.' :: List.replicate (k + 1) '0')

theorem digits_append_zeros (h : Digits digits) (k : ℕ) :
    Digits (digits ++ List.replicate k '0') := by
  refine ⟨List.append_ne_nil_of_left_ne_nil h.1 _, List.forall_mem_append.mpr ⟨h.2, ?_⟩⟩
  intro c hc
  rw [List.eq_of_mem_replicate hc]
  rfl

theorem digits_zeros_append (h : Digits digits) (k : ℕ) :
    Digits (List.replicate k '0' ++ digits) := by
  refine ⟨List.append_ne_nil_of_right_ne_nil _ h.1, List.forall_mem_append.mpr ⟨?_, h.2⟩⟩
  intro c hc
  rw [List.eq_of_mem_replicate hc]
  rfl

theorem placeValue_zeros_append (k : ℕ) (digits : List Char) :
    placeValue (List.replicate k '0' ++ digits) = placeValue digits := by
  rw [placeValue_append, placeValue_zeros, Nat.mul_zero, Nat.zero_add]

/-- **The same number is written.** -/
theorem Pads.writes (hpads : Pads lexeme padded) (h : Writes lexeme q) : Writes padded q := by
  cases hpads with
  | front k lexeme =>
    cases h with
    | whole h =>
      rw [← placeValue_zeros_append k]
      exact .whole (digits_zeros_append h k)
    | decimal hw hf =>
      rw [← placeValue_zeros_append k, ← List.append_assoc]
      exact .decimal (digits_zeros_append hw k) hf
  | @behind k whole fraction hw hf =>
    have hvalue : (placeValue (fraction ++ List.replicate k '0') : ℚ) /
        10 ^ (fraction ++ List.replicate k '0').length =
          placeValue fraction / 10 ^ fraction.length := by
      rw [placeValue_append, placeValue_zeros, Nat.add_zero, List.length_append,
        List.length_replicate, pow_add]
      push_cast
      field_simp
    rw [h.unique (.decimal hw hf), ← hvalue]
    exact .decimal hw (digits_append_zeros hf k)
  | fraction k hw =>
    have hzero : Digits ['0'] := ⟨by simp, List.forall_mem_singleton.mpr rfl⟩
    have hzeros : Digits (List.replicate (k + 1) '0') := digits_append_zeros hzero k
    have hwrites := Writes.decimal hw hzeros
    rw [placeValue_zeros, Nat.cast_zero, zero_div, add_zero] at hwrites
    rw [h.unique (.whole hw)]
    exact hwrites

end Numeral

/-! ## Number tokens -/

open Numeral (Writes Pads)

variable {t t' : Token} {q r : ℚ}

/-- **A number token** of a source that scans. -/
def Token.IsNumber (t : Token) : Prop :=
  ∃ source tokens, scan source = .ok tokens ∧ t ∈ tokens ∧ t.kind = .number

/-- **A number token** is worth the numeral that its lexeme is read as, rounded. -/
theorem Token.IsNumber.exists_numeral (h : t.IsNumber) : ∃ q n, Writes t.lexeme.toList q ∧
    Numeral.read? t.lexeme.toList = some n ∧ n.value = q ∧ t.literal = .number n.toBinary64 := by
  obtain ⟨source, tokens, hscan, hmem, hkind⟩ := h
  obtain ⟨hspells, hdenotes⟩ :=
    spells_of_munch (munch_of_scan hscan) (scan_eq_ok_iff.mp hscan).2.2 t hmem
  rw [hkind] at hspells hdenotes
  obtain ⟨q, hwrites⟩ := Numeral.exists_writes hspells
  obtain ⟨n, hread, hvalue⟩ := Numeral.exists_of_writes hwrites
  refine ⟨q, n, hwrites, hread, hvalue, ?_⟩
  generalize t.literal = literal at hdenotes
  cases hdenotes with
  | number hread' => rw [Option.some.inj (hread.symm.trans hread')]
  | other hkind => exact absurd rfl hkind.1

/-- So it is worth the word nearest to what its lexeme writes. -/
theorem Token.IsNumber.exists_nearest (h : t.IsNumber) (hwrites : Writes t.lexeme.toList q) :
    ∃ word, t.literal = .number (Binary64.ofWord word) ∧ Binary64.Nearest word q := by
  obtain ⟨q', n, hwrites', -, hvalue, hliteral⟩ := h.exists_numeral
  obtain ⟨word, hword, hnearest⟩ := Numeral.nearest_toBinary64 n
  rw [hvalue, hwrites'.unique hwrites] at hnearest
  exact ⟨word, by rw [hliteral, hword], hnearest⟩

theorem literal_eq_of_writes (h : t.IsNumber) (h' : t'.IsNumber) (hq : Writes t.lexeme.toList q)
    (hq' : Writes t'.lexeme.toList q) : t'.literal = t.literal := by
  obtain ⟨word, hliteral, hnearest⟩ := h.exists_nearest hq
  obtain ⟨word', hliteral', hnearest'⟩ := h'.exists_nearest hq'
  rw [hliteral, hliteral', hnearest.unique hnearest']

theorem scan_ne_invalidNumber (source lexeme : String) (span : Span) :
    scan source ≠ .error (.invalidNumber lexeme span) := by
  intro h
  by_cases hle : Text.byteLength source.toList ≤ maxSourceLength
  · obtain ⟨_, _, _, _, -, -, -, hfault⟩ := (scan_eq_error_iff_faultAt hle).mp h
    cases hfault
  · rw [scan_of_large (Nat.not_le.mp hle)] at h
    cases h

/-- **Number tokens are rounded once.**

* The lexeme of a number token of any source writes a number, and it is read; the value of the token
  is that number, rounded to nearest and to even, to infinity exactly from the middle behind the
  greatest finite value on; it is neither negative nor no number.
* Nothing but that number matters, whatever the sources, and a greater one has no lesser value.
* Zeros in front, or behind a fraction, or as a fraction, do not matter.
* No scan fails over a numeral. -/
theorem number_tokens_rounded :
    (∀ t : Token, t.IsNumber → ∃ q n x, Writes t.lexeme.toList q ∧
      Numeral.read? t.lexeme.toList = some n ∧ t.literal = .number x ∧ x.RoundsTo q ∧
        0 ≤ x.value ∧ x.word ≤ Binary64.infinityWord) ∧
    (∀ t t' : Token, t.IsNumber → t'.IsNumber → ∀ q r x y,
      Writes t.lexeme.toList q → Writes t'.lexeme.toList r →
        t.literal = .number x → t'.literal = .number y →
          (q = r → x = y) ∧ (q ≤ r → x.value ≤ y.value)) ∧
    (∀ t t' : Token, t.IsNumber → t'.IsNumber → Pads t.lexeme.toList t'.lexeme.toList →
      t'.literal = t.literal) ∧
    ∀ source lexeme span, scan source ≠ .error (.invalidNumber lexeme span) := by
  refine ⟨?rounded, ?ordered, ?padded, scan_ne_invalidNumber⟩
  case rounded =>
    intro t ht
    obtain ⟨q, n, hwrites, hread, -, -⟩ := ht.exists_numeral
    obtain ⟨word, hliteral, hnearest⟩ := ht.exists_nearest hwrites
    exact ⟨q, n, _, hwrites, hread, hliteral, Binary64.roundsTo_ofWord hnearest,
      Binary64.value_nonneg _, Binary64.word_le _⟩
  case ordered =>
    intro t t' ht ht' q r x y hq hr hx hy
    obtain ⟨word, hliteral, hnearest⟩ := ht.exists_nearest hq
    obtain ⟨word', hliteral', hnearest'⟩ := ht'.exists_nearest hr
    obtain rfl : x = _ := Literal.number.inj (hx.symm.trans hliteral)
    obtain rfl : y = _ := Literal.number.inj (hy.symm.trans hliteral')
    constructor
    · rintro rfl
      rw [hnearest.unique hnearest']
    · exact Binary64.value_le_of_nearest hnearest hnearest'
  case padded =>
    intro t t' ht ht' hpads
    obtain ⟨q, n, hwrites, -⟩ := ht.exists_numeral
    exact literal_eq_of_writes ht ht' hwrites (hpads.writes hwrites)

/-- The number behind `2 ^ 53` is in the middle of two values, and the even one is taken; zeros in
front of it do not matter. -/
theorem number_tokens_rounded_tie : ∃ t t' : Token, t.IsNumber ∧ t'.IsNumber ∧
    t.lexeme = "9007199254740993" ∧ t'.lexeme = "009007199254740993" ∧ t'.literal = t.literal ∧
      ∃ x, t.literal = .number x ∧ x.word = 0x4340000000000000 ∧ x.RoundsTo 9007199254740993 := by
  have hvalues : (scan "9007199254740993 009007199254740993").map
      (List.map fun t => (t.kind, t.lexeme, t.literal)) =
      .ok [(.number, "9007199254740993", .number ⟨0x4340000000000000, by decide⟩),
        (.space, " ", .lexeme " "),
        (.number, "009007199254740993", .number ⟨0x4340000000000000, by decide⟩)] := by
    decide +kernel
  obtain ⟨tokens, hscan, hmap⟩ := exists_of_map_eq_ok hvalues
  obtain ⟨t, rest, rfl, ht, hrest⟩ := List.map_eq_cons_iff.mp hmap
  obtain ⟨space, rest, rfl, -, hlast⟩ := List.map_eq_cons_iff.mp hrest
  obtain ⟨t', rest, rfl, ht', -⟩ := List.map_eq_cons_iff.mp hlast
  simp only [Prod.mk.injEq] at ht ht'
  obtain ⟨hkind, hlexeme, hliteral⟩ := ht
  obtain ⟨hkind', hlexeme', -⟩ := ht'
  have hnumber : t.IsNumber := ⟨_, _, hscan, by simp, hkind⟩
  have hnumber' : t'.IsNumber := ⟨_, _, hscan, by simp, hkind'⟩
  have hpads : Pads t.lexeme.toList t'.lexeme.toList := by
    rw [hlexeme, hlexeme']
    exact .front 2 _
  have hwrites : Writes t.lexeme.toList 9007199254740993 := by
    have hdigits : Digits "9007199254740993".toList :=
      ⟨by decide, List.all_eq_true.mp (by decide +kernel)⟩
    have hwhole := Writes.whole hdigits
    have hvalue : Numeral.placeValue "9007199254740993".toList = 9007199254740993 := by
      decide +kernel
    rw [hvalue] at hwhole
    rw [hlexeme]
    exact_mod_cast hwhole
  obtain ⟨hrounded, -, hpadded, -⟩ := number_tokens_rounded
  obtain ⟨q, n, x, hq, -, hx, hrounds, -, -⟩ := hrounded t hnumber
  obtain rfl : q = 9007199254740993 := hq.unique hwrites
  refine ⟨t, t', hnumber, hnumber', hlexeme, hlexeme', hpadded t t' hnumber hnumber' hpads, x, hx,
    ?_, hrounds⟩
  rw [Literal.number.inj (hx.symm.trans hliteral)]

end LoxTokenizer
