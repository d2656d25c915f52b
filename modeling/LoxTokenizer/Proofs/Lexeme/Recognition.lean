import LoxTokenizer.Proofs.Lexeme.Grammar
import Mathlib.Data.List.TakeWhile

/-!
# Recognition stops where nothing extends a lexeme

`recognize` looks at one or two characters and takes runs of characters. Branch by branch, it takes
a lexeme of the grammar, up to where the characters behind do not extend it, and no less.

Results:
* **`recognize_append`**: a lexeme that the text behind it does not extend is recognized whole.
* **`found_of_recognize`**: what is recognized is a lexeme, and the text behind it does not extend
  it.
* `wordKind_identifier_or_keyword`: a word has the kind of identifiers or of a keyword.
-/

namespace LoxTokenizer.Lexeme

open CharClass

/-! ## Runs of characters -/

section Runs

variable {p : Char → Bool}

/-- A run ends where the condition fails, or with the text. -/
theorem takeWhile_append {run behind : List Char} (h : ∀ c ∈ run, p c = true)
    (hb : ∀ c ∈ behind.head?, p c = false) : (run ++ behind).takeWhile p = run := by
  rw [List.takeWhile_append_of_pos h]
  cases behind with
  | nil => simp
  | cons c behind =>
    have : ¬ p c = true := by simp [hb c rfl]
    rw [List.takeWhile_cons_of_neg this, List.append_nil]

/-- A run is dropped up to where the condition fails. -/
theorem dropWhile_append {run behind : List Char} (h : ∀ c ∈ run, p c = true)
    (hb : ∀ c ∈ behind.head?, p c = false) : (run ++ behind).dropWhile p = behind := by
  rw [List.dropWhile_append_of_pos h]
  cases behind with
  | nil => rfl
  | cons c behind => exact List.dropWhile_cons_of_neg (by simp [hb c rfl])

theorem runLength_append {run behind : List Char} (h : ∀ c ∈ run, p c = true)
    (hb : ∀ c ∈ behind.head?, p c = false) : runLength p (run ++ behind) = run.length := by
  rw [runLength, takeWhile_append h hb]

/-- Every text is a run and what is behind it. -/
theorem exists_run (p : Char → Bool) (text : List Char) :
    ∃ run behind, text = run ++ behind ∧ (∀ c ∈ run, p c = true) ∧
      ∀ c ∈ behind.head?, p c = false := by
  refine ⟨text.takeWhile p, text.dropWhile p, List.takeWhile_append_dropWhile.symm,
    fun c hc => List.mem_takeWhile_imp hc, fun c hc => ?_⟩
  have := List.head?_dropWhile_not p text
  rw [Option.mem_def.mp hc] at this
  simpa using this

end Runs

/-! ## The branch that a first character takes -/

theorem recognize_of_isDigit {c : Char} (h : isDigit c = true) (rest : List Char) :
    recognize c rest = .ok (.number, numeralLength rest) := by
  unfold recognize
  split
  all_goals first
    | exact absurd h (by decide)
    | rw [if_pos h]

theorem recognize_of_isWordStart {c : Char} (h : isWordStart c = true) (rest : List Char) :
    recognize c rest = .ok (word c rest) := by
  have hd : ¬ isDigit c = true := by simp [not_isDigit_of_isWordStart h]
  unfold recognize
  split
  all_goals first
    | exact absurd h (by decide)
    | rw [if_neg hd, if_pos h]

/-- A character of the table is a lexeme on its own, unless it is the first of two slashes. -/
theorem recognize_of_punctuation {kind : TokenKind} {c : Char} {rest : List Char}
    (h : TokenKind.punctuation? c = some kind) (hs : kind = .slash → rest.head? ≠ some '/') :
    recognize c rest = .ok (kind, 0) := by
  unfold TokenKind.punctuation? at h
  split at h
  all_goals first
    | cases h; rfl
    | skip
  · cases h
    have : slashOrComment rest = (.slash, 0) := by
      unfold slashOrComment
      split
      · exact absurd rfl (hs rfl)
      · rfl
    simp only [recognize, this]
  · cases h

theorem recognize_of_operator {single double : TokenKind} {c : Char}
    (h : Operator c single double) (rest : List Char) :
    recognize c rest = .ok (withEqual single double rest) := by
  cases h <;> rfl

/-! ## The length of a lexeme -/

theorem slashOrComment_append {body behind : List Char} (h : ∀ c ∈ body, c ≠ '\n')
    (hb : ∀ c ∈ behind.head?, c = '\n') :
    slashOrComment ('/' :: (body ++ behind)) = (.comment, body.length + 1) := by
  have hrun : runLength (· != '\n') (body ++ behind) = body.length :=
    runLength_append (by simpa using h) (by simpa using hb)
  simp only [slashOrComment, hrun]

theorem stringBody_append {body behind : List Char} (h : ∀ c ∈ body, c ≠ '"') :
    stringBody (body ++ '"' :: behind) = .ok (.string, body.length + 1) := by
  have hrun : runLength (· != '"') (body ++ '"' :: behind) = body.length :=
    runLength_append (by simpa using h) (by simp)
  unfold stringBody
  simp only [hrun]
  rw [if_pos (by simp)]

theorem isDigit_point : isDigit '.' = false := by decide

theorem numeralLength_whole {digits behind : List Char} (h : ∀ c ∈ digits, isDigit c = true)
    (hb : ∀ c ∈ behind.head?, isDigit c = false)
    (hp : ∀ d rest, behind = '.' :: d :: rest → isDigit d = false) :
    numeralLength (digits ++ behind) = digits.length := by
  unfold numeralLength
  simp only [runLength_append h hb, List.drop_left]
  split
  · rename_i d rest
    rw [if_neg (by simp [hp d rest rfl])]
  · rfl

theorem numeralLength_decimal {whole fraction behind : List Char} {d : Char}
    (hw : ∀ c ∈ whole, isDigit c = true) (hd : isDigit d = true)
    (hf : ∀ c ∈ fraction, isDigit c = true) (hb : ∀ c ∈ behind.head?, isDigit c = false) :
    numeralLength (whole ++ '.' :: d :: (fraction ++ behind)) =
      whole.length + 2 + fraction.length := by
  have hpoint : ∀ c ∈ ('.' :: d :: (fraction ++ behind)).head?, isDigit c = false := by
    intro c hc
    cases hc
    exact isDigit_point
  unfold numeralLength
  simp only [runLength_append hw hpoint, List.drop_left, if_pos hd, runLength_append hf hb]

/-! ## A lexeme that nothing extends is recognized -/

theorem wordKind_identifier_or_keyword (text : List Char) :
    wordKind text = .identifier ∨ (wordKind text).isKeyword = true := by
  unfold wordKind
  cases h : TokenKind.keyword? (String.ofList text) with
  | none => exact Or.inl rfl
  | some kind => exact Or.inr (TokenKind.keyword?_eq_some_iff.mp h).1

variable {kind : TokenKind} {lexeme behind : List Char}

/-- **A lexeme is recognized whole** unless the text behind it extends it. -/
theorem recognize_append {c : Char} {more : List Char} (h : Spells kind (c :: more))
    (hx : ¬ Extends kind (c :: more) behind) :
    recognize c (more ++ behind) = .ok (kind, more.length) := by
  generalize hl : c :: more = lexeme at h hx
  cases h with
  | punctuation h =>
    cases hl
    refine recognize_of_punctuation h ?_
    rintro rfl hs
    exact hx hs
  | operator h =>
    cases hl
    have hs : ¬ behind.head? = some '=' := by cases h <;> exact hx
    rw [recognize_of_operator h]
    exact congrArg Except.ok (if_neg hs)
  | operatorEqual h =>
    cases hl
    rw [recognize_of_operator h]
    rfl
  | @comment body h =>
    cases hl
    have hb : ∀ c ∈ behind.head?, c = '\n' := by
      intro c hc
      by_contra hne
      exact hx ⟨c, hc, hne⟩
    exact congrArg Except.ok (slashOrComment_append h hb)
  | @string body h =>
    cases hl
    show stringBody (body ++ ['"'] ++ behind) = _
    rw [List.append_assoc, List.singleton_append, stringBody_append h, List.length_append]
    rfl
  | whole h =>
    cases hl
    have hno : '.' ∉ c :: more := fun hm => by simpa [isDigit_point] using h.2 _ hm
    rw [recognize_of_isDigit (h.2 c List.mem_cons_self), numeralLength_whole]
    · exact fun d hd => h.2 d (List.mem_cons_of_mem c hd)
    · exact fun d hd => Bool.eq_false_iff.mpr fun h => hx (Or.inl ⟨d, hd, h⟩)
    · exact fun d rest heq =>
        Bool.eq_false_iff.mpr fun h => hx (Or.inr ⟨hno, d, rest, heq, h⟩)
  | @decimal whole fraction hw hf =>
    obtain ⟨rest, rfl⟩ : ∃ rest, whole = c :: rest := by
      cases whole with
      | nil => exact absurd rfl hw.1
      | cons d rest =>
        cases hl
        exact ⟨rest, rfl⟩
    obtain ⟨d, rest', rfl⟩ := List.exists_cons_of_ne_nil hf.1
    obtain rfl : more = rest ++ '.' :: d :: rest' := List.tail_eq_of_cons_eq hl
    rw [recognize_of_isDigit (hw.2 c List.mem_cons_self), List.append_assoc, List.cons_append,
      List.cons_append, numeralLength_decimal]
    · simp
      omega
    · exact fun d hd => hw.2 d (List.mem_cons_of_mem c hd)
    · exact hf.2 d List.mem_cons_self
    · exact fun e he => hf.2 e (List.mem_cons_of_mem d he)
    · exact fun e he => Bool.eq_false_iff.mpr fun h => hx (Or.inl ⟨e, he, h⟩)
  | @word _ d rest hk hc h =>
    cases hl
    have hkind := wordKind_identifier_or_keyword (c :: more)
    rw [hk] at hkind
    have hb : ∀ c ∈ behind.head?, isWordPart c = false := fun d hd =>
      Bool.eq_false_iff.mpr fun h => hx ((extends_word hkind).mpr ⟨d, hd, h⟩)
    rw [recognize_of_isWordStart hc]
    unfold word
    rw [takeWhile_append h hb, runLength_append h hb, hk]

/-! ## What is recognized is a lexeme that nothing extends -/

/-- `found`, a kind and a number of characters behind `c`, is a lexeme at the front of
`c :: rest`, and the text behind it does not extend it. -/
def Found (c : Char) (rest : List Char) (found : TokenKind × Nat) : Prop :=
  ∃ more behind, rest = more ++ behind ∧ found.2 = more.length ∧
    Spells found.1 (c :: more) ∧ ¬ Extends found.1 (c :: more) behind

/-- A completed operator takes no more characters. -/
theorem not_extends_double {single double : TokenKind} {c : Char} (h : Operator c single double) :
    ¬ Extends double lexeme behind := by
  intro hx
  cases h <;> exact absurd hx.1 (by decide)

theorem found_withEqual {single double : TokenKind} {c : Char} (h : Operator c single double)
    (rest : List Char) : Found c rest (withEqual single double rest) := by
  unfold withEqual
  split
  · rename_i hs
    obtain ⟨behind, rfl⟩ := List.head?_eq_some_iff.mp hs
    exact ⟨['='], behind, rfl, rfl, .operatorEqual h, not_extends_double h⟩
  · rename_i hs
    refine ⟨[], rest, rfl, rfl, .operator h, ?_⟩
    cases h <;> exact hs

theorem found_slashOrComment (rest : List Char) : Found '/' rest (slashOrComment rest) := by
  unfold slashOrComment
  split
  · rename_i text
    obtain ⟨body, behind, rfl, hbody, hb⟩ := exists_run (· != '\n') text
    rw [runLength_append hbody hb]
    refine ⟨'/' :: body, behind, rfl, rfl, .comment (by simpa using hbody), ?_⟩
    rintro ⟨c, hc, hne⟩
    exact hne (by simpa using hb c hc)
  · rename_i hs
    refine ⟨[], rest, rfl, rfl, .punctuation rfl, fun hx => ?_⟩
    obtain ⟨behind, rfl⟩ := List.head?_eq_some_iff.mp hx
    exact hs behind rfl

theorem found_stringBody {rest : List Char} {found : TokenKind × Nat}
    (h : stringBody rest = .ok found) : Found '"' rest found := by
  obtain ⟨body, behind, rfl, hbody, hb⟩ := exists_run (· != '"') rest
  unfold stringBody at h
  simp only [runLength_append hbody hb] at h
  cases behind with
  | nil => simp at h
  | cons c behind =>
    obtain rfl : c = '"' := by simpa using hb c rfl
    rw [if_pos (by simp)] at h
    cases h
    exact ⟨body ++ ['"'], behind, by simp, by simp, .string (by simpa using hbody),
      not_extends_string⟩

theorem found_number {c : Char} (hc : isDigit c = true) (rest : List Char) :
    Found c rest (.number, numeralLength rest) := by
  obtain ⟨digits, behind, rfl, hd, hb⟩ := exists_run isDigit rest
  have hwhole : Digits (c :: digits) := ⟨List.cons_ne_nil _ _, List.forall_mem_cons.mpr ⟨hc, hd⟩⟩
  by_cases hp : ∃ d text, behind = '.' :: d :: text ∧ isDigit d = true
  · obtain ⟨d, text, rfl, hfirst⟩ := hp
    obtain ⟨fraction, behind, rfl, hf, hb'⟩ := exists_run isDigit text
    refine ⟨digits ++ '.' :: d :: fraction, behind, by simp, ?_, ?_, ?_⟩
    · rw [numeralLength_decimal hd hfirst hf hb']
      simp
      omega
    · exact .decimal hwhole ⟨List.cons_ne_nil _ _, List.forall_mem_cons.mpr ⟨hfirst, hf⟩⟩
    · rintro (⟨e, he, hdigit⟩ | ⟨hno, -⟩)
      · exact absurd hdigit (by simp [hb' e he])
      · exact hno (by simp)
  · refine ⟨digits, behind, rfl, numeralLength_whole hd hb fun d text heq => ?_, .whole hwhole, ?_⟩
    · exact Bool.eq_false_iff.mpr fun hfirst => hp ⟨d, text, heq, hfirst⟩
    · rintro (⟨e, he, hdigit⟩ | ⟨-, hpoint⟩)
      · exact absurd hdigit (by simp [hb e he])
      · exact hp hpoint

theorem found_word {c : Char} (hc : isWordStart c = true) (rest : List Char) :
    Found c rest (word c rest) := by
  obtain ⟨run, behind, rfl, hr, hb⟩ := exists_run isWordPart rest
  unfold word
  rw [takeWhile_append hr hb, runLength_append hr hb]
  refine ⟨run, behind, rfl, rfl, .word rfl hc hr, fun hx => ?_⟩
  obtain ⟨d, hd, hpart⟩ := (extends_word (wordKind_identifier_or_keyword (c :: run))).mp hx
  exact absurd hpart (by simp [hb d hd])

theorem found_punctuation {kind : TokenKind} {c : Char} (h : TokenKind.punctuation? c = some kind)
    (hs : c ≠ '/') (rest : List Char) : Found c rest (kind, 0) :=
  ⟨[], rest, rfl, rfl, .punctuation h, fun hx => hs ((extends_punctuation_iff h).mp hx).1⟩

/-- **What is recognized** is a lexeme, and the text behind it does not extend it. -/
theorem found_of_recognize {c : Char} {rest : List Char} {found : TokenKind × Nat}
    (h : recognize c rest = .ok found) : Found c rest found := by
  unfold recognize at h
  split at h
  · cases h; exact found_withEqual .bang rest
  · cases h; exact found_withEqual .equal rest
  · cases h; exact found_withEqual .less rest
  · cases h; exact found_withEqual .greater rest
  · cases h; exact found_slashOrComment rest
  · exact found_stringBody h
  · rename_i hslash _
    split at h
    · rename_i hd
      cases h
      exact found_number hd rest
    · split at h
      · rename_i hw
        cases h
        exact found_word hw rest
      · split at h
        · rename_i hp
          cases h
          exact found_punctuation hp hslash rest
        · cases h

end LoxTokenizer.Lexeme
