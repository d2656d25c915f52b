import LoxTokenizer.Proofs.Lexeme.Munch

/-!
# Where no lexeme starts

A munch goes on until it meets a character that no lexeme starts with, or a quote that is never
closed. Both are told by the text from there on alone, and neither glues to what comes before it,
unless that is a comment.

* `StartsNone c`: no lexeme starts with `c`.
* `recognize_eq_unexpectedCharacter_iff`, `recognize_eq_unterminatedString_iff`: the two faults.
* **`glue_iff_of_separates`**: of all pieces only a comment goes on into a fault or a string.
* **`Munch.isPrefix_of_stuck`**: a munch of the same text does not go past a fault.
-/

namespace LoxTokenizer.Lexeme

open CharClass

/-! ## The two faults -/

/-- No lexeme starts with this character: it is no quote, no operator, no letter, digit or
underscore, and it is not in the table of the characters that stand for themselves. -/
def StartsNone (c : Char) : Prop :=
  c ∉ ['"', '!', '=', '<', '>'] ∧ isWordPart c = false ∧ TokenKind.punctuation? c = none

instance : DecidablePred StartsNone := fun _ => inferInstanceAs (Decidable (_ ∧ _ ∧ _))

theorem not_startsNone_of_punctuation {kind : TokenKind} {c : Char}
    (h : TokenKind.punctuation? c = some kind) : ¬ StartsNone c := by
  intro hc
  rw [hc.2.2] at h
  cases h

/-- A string has no end where no second quote follows. -/
theorem stringBody_eq_error_iff {rest : List Char} {fault : Fault} :
    stringBody rest = .error fault ↔ fault = .unterminatedString ∧ '"' ∉ rest := by
  obtain ⟨body, behind, rfl, hbody, hb⟩ := exists_run (· != '"') rest
  have hbody' : ∀ c ∈ body, c ≠ '"' := by simpa using hbody
  cases behind with
  | nil =>
    have hrun : runLength (· != '"') (body ++ []) = (body ++ []).length := by
      rw [runLength_append hbody hb, List.append_nil]
    have hno : '"' ∉ body ++ [] := by
      intro hm
      exact hbody' _ (by simpa using hm) rfl
    unfold stringBody
    simp only [hrun, Nat.lt_irrefl, if_false]
    constructor
    · intro h
      cases h
      exact ⟨rfl, hno⟩
    · rintro ⟨rfl, -⟩
      rfl
  | cons c behind =>
    obtain rfl : c = '"' := by simpa using hb c rfl
    rw [stringBody_append hbody']
    constructor
    · intro h
      cases h
    · rintro ⟨-, hno⟩
      exact absurd (by simp) hno

variable {c : Char} {rest : List Char} {fault : Fault}

theorem recognize_eq_unexpectedCharacter_iff :
    recognize c rest = .error .unexpectedCharacter ↔ StartsNone c := by
  unfold recognize
  split
  case h_6 =>
    constructor
    · intro h
      obtain ⟨h, -⟩ := stringBody_eq_error_iff.mp h
      cases h
    · intro h
      exact absurd (by simp) h.1
  case h_7 _ hbang hequal hless hgreater hslash hquote =>
    by_cases hd : isDigit c = true
    · have hpart : isWordPart c = true := isWordPart_iff.mpr (.inr hd)
      rw [if_pos hd]
      simp [StartsNone, hpart]
    · by_cases hw : isWordStart c = true
      · have hpart : isWordPart c = true := isWordPart_iff.mpr (.inl hw)
        rw [if_neg hd, if_pos hw]
        simp [StartsNone, hpart]
      · have hpart : isWordPart c = false := by simp [isWordPart, hd, hw]
        have hlisted : c ∉ ['"', '!', '=', '<', '>'] := by
          simp only [List.mem_cons, List.not_mem_nil, or_false, not_or]
          exact ⟨hquote, hbang, hequal, hless, hgreater⟩
        rw [if_neg hd, if_neg hw]
        cases hp : TokenKind.punctuation? c with
        | none => exact ⟨fun _ => ⟨hlisted, hpart, hp⟩, fun _ => rfl⟩
        | some kind =>
          constructor
          · intro h
            cases h
          · intro h
            exact absurd h (not_startsNone_of_punctuation hp)
  case h_5 =>
    constructor
    · intro h
      cases h
    · intro h
      exact absurd h (not_startsNone_of_punctuation rfl)
  all_goals
    constructor
    · intro h
      cases h
    · intro h
      exact absurd (by simp) h.1

theorem recognize_eq_unterminatedString_iff :
    recognize c rest = .error .unterminatedString ↔ c = '"' ∧ '"' ∉ rest := by
  by_cases hc : c = '"'
  · subst hc
    have hr : recognize '"' rest = stringBody rest := rfl
    rw [hr, stringBody_eq_error_iff]
    exact and_congr_left fun _ => iff_of_true rfl rfl
  · constructor
    · intro h
      unfold recognize at h
      split at h
      case h_6 => exact absurd rfl hc
      case h_7 =>
        split at h
        · cases h
        · split at h
          · cases h
          · split at h <;> cases h
      all_goals cases h
    · rintro ⟨h, -⟩
      exact absurd h hc

/-! ## What comes before a fault -/

/-- A character that belongs to no lexeme that started before it, other than a string or a
comment. -/
def Separates (c : Char) : Prop :=
  isWordPart c = false ∧ c ≠ '=' ∧ c ≠ '/' ∧ c ≠ '.' ∧ c ≠ '\n'

theorem separates_quote : Separates '"' := by
  unfold Separates
  decide

theorem separates_of_error (h : recognize c rest = .error fault) : Separates c := by
  cases fault with
  | unterminatedString =>
    obtain ⟨rfl, -⟩ := recognize_eq_unterminatedString_iff.mp h
    exact separates_quote
  | unexpectedCharacter =>
    have hc := recognize_eq_unexpectedCharacter_iff.mp h
    refine ⟨hc.2.1, ?_, ?_, ?_, ?_⟩
    · rintro rfl
      exact hc.1 (by simp)
    all_goals
      rintro rfl
      exact not_startsNone_of_punctuation rfl hc

theorem Separates.isDigit_eq_false (h : Separates c) : isDigit c = false :=
  (Bool.or_eq_false_iff.mp h.1).2

/-- Only a comment goes on into such a character. -/
theorem extends_iff_of_separates {kind : TokenKind} {lexeme : List Char} (h : Separates c) :
    Extends kind lexeme (c :: rest) ↔ kind = .comment := by
  have hdigit := h.isDigit_eq_false
  obtain ⟨hpart, hequal, hslash, hpoint, hline⟩ := h
  constructor
  · intro hx
    unfold Extends at hx
    split at hx
    · rfl
    · rcases hx with ⟨d, hd, hx⟩ | ⟨-, d, tail, heq, -⟩
      · cases hd
        rw [hdigit] at hx
        cases hx
      · exact absurd (List.cons.inj heq).1 hpoint
    all_goals first
      | exact absurd (Option.some.inj hx) hequal
      | exact absurd (Option.some.inj hx) hslash
      | skip
    obtain ⟨-, d, hd, hx⟩ := hx
    cases hd
    rw [hpart] at hx
    cases hx
  · rintro rfl
    exact ⟨c, rfl, hline⟩

/-- **Of all pieces only a comment goes on** into a fault, or into a string. -/
theorem glue_iff_of_separates {pieces : List (TokenKind × List Char)} (h : Separates c) :
    Glue pieces (c :: rest) ↔ ∃ piece, pieces.getLast? = some piece ∧ piece.1 = .comment := by
  constructor
  · intro hg
    cases hg with
    | last earlier hx => exact ⟨_, List.getLast?_concat, (extends_iff_of_separates h).mp hx⟩
    | point earlier hno hd =>
      rw [h.isDigit_eq_false] at hd
      cases hd
  · rintro ⟨⟨kind, lexeme⟩, hlast, hkind⟩
    obtain ⟨earlier, rfl⟩ := List.getLast?_eq_some_iff.mp hlast
    exact .last earlier ((extends_iff_of_separates h).mpr hkind)

namespace Munch

variable {text behind : List Char} {pieces more : List (TokenKind × List Char)}

/-- **No munch goes past a fault**: the pieces of another one are the first of those before it. -/
theorem isPrefix_of_stuck (hm : Munch text more behind) (h : Munch text pieces (c :: rest))
    (hr : recognize c rest = .error fault) : more <+: pieces := by
  induction hm generalizing pieces with
  | done => exact List.nil_prefix
  | @lexeme kind lexeme tail behind more hl ht ih =>
    cases pieces with
    | nil =>
      have htext : lexeme ++ tail = c :: rest := h.eq_append
      have hstart : lexeme <+: c :: rest := htext ▸ List.prefix_append lexeme tail
      exact absurd hl.spells (not_spells_of_recognize hr hstart)
    | cons piece pieces =>
      obtain ⟨kind', lexeme'⟩ := piece
      obtain ⟨tail', htext, hl', ht'⟩ := cons_iff.mp h
      obtain rfl : lexeme = lexeme' := hl.unique hl'
      obtain rfl : tail = tail' := List.append_cancel_left htext
      obtain rfl : kind = kind' := hl.spells.unique hl'.spells
      exact (List.prefix_cons_inj _).mpr (ih ht')

end Munch

end LoxTokenizer.Lexeme
