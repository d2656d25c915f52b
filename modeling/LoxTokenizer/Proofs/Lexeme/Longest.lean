import LoxTokenizer.Proofs.Lexeme.Recognition

/-!
# The longest lexeme is the recognized one

`found_of_recognize` and `recognize_append` speak of the characters behind a lexeme. Here they are
turned into statements about all lexemes that a text starts with.

Results:
* `exists_longer`: where the text behind extends a lexeme, it makes up a longer one.
* `recognize_of_spells`: where a lexeme starts, one at least as long is recognized.
* **`isLongest_iff_recognize`**: to be recognized is to be the longest lexeme.
* **`isLongest_append_iff`**: whether a lexeme is the longest is decided by `Extends`.
* `Spells.unique`: a text is a lexeme of one kind only.
* `not_spells_of_recognize`: where nothing is recognized, no lexeme starts.
-/

namespace LoxTokenizer.Lexeme

open CharClass

variable {kind kind' : TokenKind} {lexeme behind : List Char}

theorem forall_mem_concat {q : Char → Prop} {text : List Char} {c : Char}
    (h : ∀ d ∈ text, q d) (hc : q c) : ∀ d ∈ text ++ [c], q d := by
  intro d hd
  rcases List.mem_append.mp hd with hd | hd
  · exact h d hd
  · rw [List.mem_singleton.mp hd]
    exact hc

theorem Digits.concat {digits : List Char} {d : Char} (h : Digits digits) (hd : isDigit d = true) :
    Digits (digits ++ [d]) :=
  ⟨by simp, forall_mem_concat h.2 hd⟩

/-- **Extension makes a longer lexeme** out of the first characters behind. -/
theorem exists_longer (h : Spells kind lexeme) (hx : Extends kind lexeme behind) :
    ∃ kind' next, next ≠ [] ∧ next <+: behind ∧ Spells kind' (lexeme ++ next) := by
  have head : ∀ {c : Char}, c ∈ behind.head? → [c] <+: behind := by
    intro c hc
    obtain ⟨rest, rfl⟩ := List.head?_eq_some_iff.mp hc
    exact ⟨rest, rfl⟩
  cases h with
  | punctuation h =>
    obtain ⟨rfl, hc⟩ := (extends_punctuation_iff h).mp hx
    exact ⟨.comment, ['/'], by simp, head hc, .comment (by simp)⟩
  | operator h =>
    have hc : behind.head? = some '=' := by cases h <;> exact hx
    exact ⟨_, ['='], by simp, head hc, .operatorEqual h⟩
  | operatorEqual h => exact absurd hx (not_extends_double h)
  | comment h =>
    obtain ⟨c, hc, hne⟩ := hx
    exact ⟨.comment, [c], by simp, head hc, .comment (forall_mem_concat h hne)⟩
  | string h => exact absurd hx not_extends_string
  | whole h =>
    rcases hx with ⟨d, hc, hd⟩ | ⟨-, d, rest, rfl, hd⟩
    · exact ⟨.number, [d], by simp, head hc, .whole (h.concat hd)⟩
    · exact ⟨.number, ['.', d], by simp, ⟨rest, rfl⟩, .decimal h ⟨by simp, by simpa using hd⟩⟩
  | decimal hw hf =>
    rcases hx with ⟨d, hc, hd⟩ | ⟨hno, -⟩
    · refine ⟨.number, [d], by simp, head hc, ?_⟩
      rw [List.append_assoc, List.cons_append]
      exact .decimal hw (hf.concat hd)
    · exact absurd (by simp) hno
  | @word _ c rest hk hc h =>
    have hkind := wordKind_identifier_or_keyword (c :: rest)
    rw [hk] at hkind
    obtain ⟨d, hd, hpart⟩ := (extends_word hkind).mp hx
    exact ⟨_, [d], by simp, head hd, .word rfl hc (forall_mem_concat h hpart)⟩

/-- **Where a lexeme starts, one is recognized**, and one at least as long: as long as the text
behind extends the lexeme, there is a longer one to start from. -/
theorem recognize_of_spells {c : Char} {more : List Char} (h : Spells kind (c :: more))
    (behind : List Char) :
    ∃ found, recognize c (more ++ behind) = .ok found ∧ more.length ≤ found.2 := by
  -- The induction is on what is left behind, which a longer lexeme takes from.
  induction hn : behind.length using Nat.strong_induction_on generalizing kind more behind with
  | _ n ih =>
    by_cases hx : Extends kind (c :: more) behind
    · obtain ⟨longer, next, hne, ⟨rest, rfl⟩, hs⟩ := exists_longer h hx
      have hlt : 0 < next.length := List.length_pos_iff.mpr hne
      rw [List.length_append] at hn
      rw [List.cons_append] at hs
      obtain ⟨found, hf, hle⟩ := ih rest.length (by omega) hs rest rfl
      rw [List.append_assoc] at hf
      rw [List.length_append] at hle
      exact ⟨found, hf, by omega⟩
    · exact ⟨(kind, more.length), recognize_append h hx, Nat.le_refl _⟩

/-- A text is a lexeme of one kind only. -/
theorem Spells.unique (h : Spells kind lexeme) (h' : Spells kind' lexeme) : kind = kind' := by
  obtain ⟨c, more, rfl⟩ := List.exists_cons_of_ne_nil h.ne_nil
  have hr := recognize_append h not_extends_nil
  rw [recognize_append h' not_extends_nil] at hr
  cases hr
  rfl

theorem isLongest_of_recognize {c : Char} {more : List Char}
    (h : recognize c (more ++ behind) = .ok (kind, more.length)) :
    IsLongest kind (c :: more) (c :: more ++ behind) := by
  obtain ⟨more', behind', heq, hlen, hs, -⟩ := found_of_recognize h
  obtain ⟨rfl, rfl⟩ := List.append_inj heq hlen
  refine ⟨hs, List.prefix_append _ _, fun {other longer} ho hp => ?_⟩
  obtain ⟨d, tail, rfl⟩ := List.exists_cons_of_ne_nil ho.ne_nil
  rw [List.cons_append, List.cons_prefix_cons] at hp
  obtain ⟨rfl, rest, hrest⟩ := hp
  obtain ⟨found, hf, hle⟩ := recognize_of_spells ho rest
  rw [hrest, h] at hf
  cases hf
  exact Nat.succ_le_succ hle

/-- **Whether a lexeme is the longest** is decided by the characters behind it. -/
theorem isLongest_append_iff (h : Spells kind lexeme) :
    IsLongest kind lexeme (lexeme ++ behind) ↔ ¬ Extends kind lexeme behind := by
  constructor
  · intro hl hx
    obtain ⟨longer, next, hne, hp, hs⟩ := exists_longer h hx
    have hle := hl.longest hs ((List.prefix_append_right_inj lexeme).mpr hp)
    have hlt : 0 < next.length := List.length_pos_iff.mpr hne
    rw [List.length_append] at hle
    omega
  · intro hx
    obtain ⟨c, more, rfl⟩ := List.exists_cons_of_ne_nil h.ne_nil
    exact isLongest_of_recognize (recognize_append h hx)

/-- **To be recognized is to be the longest lexeme.** -/
theorem isLongest_iff_recognize {c : Char} {more : List Char} :
    IsLongest kind (c :: more) (c :: more ++ behind) ↔
      recognize c (more ++ behind) = .ok (kind, more.length) :=
  ⟨fun h => recognize_append h.spells ((isLongest_append_iff h.spells).mp h),
    isLongest_of_recognize⟩

/-- No lexeme starts where none is recognized. -/
theorem not_spells_of_recognize {c : Char} {rest : List Char} {fault : Fault}
    (h : recognize c rest = .error fault) (hp : lexeme <+: c :: rest) : ¬ Spells kind lexeme := by
  intro hs
  obtain ⟨d, more, rfl⟩ := List.exists_cons_of_ne_nil hs.ne_nil
  obtain ⟨rfl, behind, rfl⟩ := List.cons_prefix_cons.mp hp
  obtain ⟨found, hf, -⟩ := recognize_of_spells hs behind
  rw [h] at hf
  cases hf

end LoxTokenizer.Lexeme
