import LoxTokenizer.Proofs.Lexeme.LineEnding

/-!
# Carriage returns before line feeds

Text from another system has a carriage return before each of its line feeds. Such a return is a
lexeme of its own, or the last character of a comment, or one more character inside of a string.
Nothing else in a munch is touched by it, so the munch of the text with its returns is known from
that of the text without.

* `Text.withReturns`: the text with a carriage return before each line feed.
* `returned`: the pieces of such a text, from those of the text without.
* `Spells.withReturns`: a lexeme other than a line feed stays one of its kind.
* `extends_withReturns`: the returns extend nothing but a comment.
* **`Munch.withReturns`**: the munch of a text with its returns.
-/

namespace LoxTokenizer

namespace Text

/-- The text with a carriage return before each line feed. -/
def withReturns (text : List Char) : List Char :=
  text.flatMap fun c => if c = '\n' then ['\r', '\n'] else [c]

variable {text more : List Char} {c : Char}

@[simp] theorem withReturns_nil : withReturns [] = [] := rfl

@[simp] theorem withReturns_newline :
    withReturns ('\n' :: text) = '\r' :: '\n' :: withReturns text := rfl

theorem withReturns_cons (h : c ≠ '\n') : withReturns (c :: text) = c :: withReturns text := by
  unfold withReturns
  rw [List.flatMap_cons, if_neg h, List.singleton_append]

@[simp] theorem withReturns_append :
    withReturns (text ++ more) = withReturns text ++ withReturns more :=
  List.flatMap_append ..

/-- A text of one line stays as it is. -/
theorem withReturns_of_line (h : ∀ c ∈ text, c ≠ '\n') : withReturns text = text := by
  induction text with
  | nil => rfl
  | cons c text ih =>
    obtain ⟨hc, htext⟩ := List.forall_mem_cons.mp h
    rw [withReturns_cons hc, ih htext]

/-- Only carriage returns are new. -/
theorem mem_withReturns (h : c ∈ withReturns text) : c ∈ text ∨ c = '\r' := by
  obtain ⟨d, hd, hc⟩ := List.mem_flatMap.mp h
  by_cases hline : d = '\n'
  · rw [if_pos hline] at hc
    rcases List.mem_pair.mp hc with rfl | rfl
    · exact Or.inr rfl
    · exact Or.inl (hline ▸ hd)
  · rw [if_neg hline] at hc
    exact Or.inl (List.mem_singleton.mp hc ▸ hd)

/-- Nothing is lost. -/
theorem mem_withReturns_of_mem (h : c ∈ text) : c ∈ withReturns text := by
  refine List.mem_flatMap.mpr ⟨c, h, ?_⟩
  split <;> simp [*]

/-- A text does not start with a carriage return because of a line feed, unless it starts with
that. -/
theorem exists_of_withReturns_eq_cons (h : withReturns text = c :: more) (hc : c ≠ '\r') :
    ∃ rest, text = c :: rest ∧ more = withReturns rest := by
  cases text with
  | nil => cases h
  | cons d text =>
    by_cases hd : d = '\n'
    · rw [hd, withReturns_newline] at h
      exact absurd (List.cons.inj h).1.symm hc
    · rw [withReturns_cons hd] at h
      obtain ⟨rfl, rfl⟩ := List.cons.inj h
      exact ⟨text, rfl, rfl⟩

end Text

namespace Lexeme

open CharClass Text

variable {kind : TokenKind} {lexeme text rest behind : List Char}
  {pieces : List (TokenKind × List Char)}

/-! ## Lexemes -/

/-- **A line feed is a lexeme by itself, or it is in a string.** -/
theorem Spells.line_or_string (h : Spells kind lexeme) (hline : kind ≠ .newline) :
    (∀ c ∈ lexeme, c ≠ '\n') ∨ ∃ body, kind = .string ∧ lexeme = '"' :: (body ++ ['"']) ∧
      ∀ c ∈ body, c ≠ '"' := by
  have digits : ∀ {text : List Char}, Digits text → ∀ c ∈ text, c ≠ '\n' := by
    rintro text ⟨-, hall⟩ c hc rfl
    exact absurd (hall _ hc) (by decide)
  cases h with
  | string h => exact Or.inr ⟨_, rfl, rfl, h⟩
  | punctuation h =>
    refine Or.inl (List.forall_mem_singleton.mpr ?_)
    rintro rfl
    cases h
    exact hline rfl
  | operator h => cases h <;> exact Or.inl (by simp)
  | operatorEqual h => cases h <;> exact Or.inl (by simp)
  | comment h =>
    exact Or.inl (List.forall_mem_cons.mpr ⟨by decide, List.forall_mem_cons.mpr ⟨by decide, h⟩⟩)
  | whole h => exact Or.inl (digits h)
  | decimal hw hf =>
    exact Or.inl (List.forall_mem_append.mpr
      ⟨digits hw, List.forall_mem_cons.mpr ⟨by decide, digits hf⟩⟩)
  | word hk hc h =>
    refine Or.inl (List.forall_mem_cons.mpr ⟨?_, ?_⟩)
    · rintro rfl
      exact absurd hc (by decide)
    · rintro d hd rfl
      exact absurd (h _ hd) (by decide)

/-- A string with returns inside of it. -/
theorem withReturns_string (body : List Char) :
    withReturns ('"' :: (body ++ ['"'])) = '"' :: (withReturns body ++ ['"']) := by
  rw [withReturns_cons (by decide), withReturns_append]
  rfl

/-- A lexeme that is neither a line feed nor a string is all on one line. -/
theorem Spells.withReturns_eq (h : Spells kind lexeme) (hline : kind ≠ .newline)
    (hstring : kind ≠ .string) : Text.withReturns lexeme = lexeme := by
  rcases h.line_or_string hline with hnone | ⟨body, hk, -⟩
  · exact withReturns_of_line hnone
  · exact absurd hk hstring

/-- **A lexeme stays a lexeme** of its kind, unless it is a line feed. -/
theorem Spells.withReturns (h : Spells kind lexeme) (hline : kind ≠ .newline) :
    Spells kind (withReturns lexeme) := by
  rcases h.line_or_string hline with hnone | ⟨body, rfl, rfl, hbody⟩
  · rwa [withReturns_of_line hnone]
  · rw [withReturns_string]
    refine .string fun c hc => ?_
    rcases mem_withReturns hc with hc | rfl
    · exact hbody c hc
    · decide

/-- **The returns extend nothing** but a comment: of what comes behind a lexeme, those characters
that could extend it are not line feeds. -/
theorem extends_withReturns (h : Extends kind (withReturns lexeme) (withReturns behind))
    (hcomment : kind ≠ .comment) : Extends kind lexeme behind := by
  cases behind with
  | nil => exact absurd h not_extends_nil
  | cons c behind =>
    by_cases hc : c = '\n'
    · rw [hc, withReturns_newline] at h
      exact absurd ((extends_iff_of_separates separates_carriageReturn).mp h) hcomment
    · rw [withReturns_cons hc] at h
      unfold Extends at h ⊢
      split at h
      case h_2 =>
        rcases h with h | ⟨hno, d, rest, heq, hd⟩
        · exact Or.inl h
        · obtain ⟨rfl, hrest⟩ := List.cons.inj heq
          have hreturn : d ≠ '\r' := by
            rintro rfl
            exact absurd hd (by decide)
          obtain ⟨rest, rfl, -⟩ := exists_of_withReturns_eq_cons hrest hreturn
          exact Or.inr ⟨fun hp => hno (mem_withReturns_of_mem hp), d, rest, rfl, hd⟩
      all_goals exact h

/-! ## Munches -/

/-- The pieces of a text with returns, from those of the text without: a return is a part of a
comment right before it, and else a piece of its own. -/
def returned : List (TokenKind × List Char) → List (TokenKind × List Char)
  | [] => []
  | (.comment, lexeme) :: (.newline, _) :: pieces =>
    (.comment, lexeme ++ ['\r']) :: (.newline, ['\n']) :: returned pieces
  | (.newline, _) :: pieces =>
    (.carriageReturn, ['\r']) :: (.newline, ['\n']) :: returned pieces
  | (kind, lexeme) :: pieces => (kind, withReturns lexeme) :: returned pieces

theorem isLongest_newline_cons (text : List Char) :
    IsLongest .newline ['\n'] (['\n'] ++ text) := by
  refine (isLongest_append_iff (.punctuation rfl)).mpr fun hx => ?_
  exact absurd hx.1 (by decide)

namespace Munch

/-- Text that starts with a line feed is munched from that line feed on. -/
theorem kind_of_newline (h : Munch ('\n' :: text) ((kind, lexeme) :: pieces) rest) :
    kind = .newline := by
  obtain ⟨tail, -, hl, -⟩ := cons_iff.mp h
  obtain rfl : lexeme = ['\n'] := hl.unique (isLongest_newline_cons text)
  exact hl.spells.unique (isLongest_newline_cons text).spells

/-- A comment with no line feed behind it is the last of its text. -/
theorem eq_nil_of_comment (h : Munch text pieces rest) (hrest : rest.head? ≠ some '\n')
    (hx : ¬ Extends .comment lexeme text)
    (hnext : ∀ line more, pieces ≠ (.newline, line) :: more) : text = [] := by
  cases text with
  | nil => rfl
  | cons c text =>
    by_cases hc : c = '\n'
    · subst hc
      cases pieces with
      | nil =>
        have hall : '\n' :: text = rest := h.eq_append
        exact absurd (by rw [← hall]; rfl) hrest
      | cons piece pieces =>
        obtain ⟨kind, line⟩ := piece
        obtain rfl := h.kind_of_newline
        exact absurd rfl (hnext line pieces)
    · exact absurd ⟨c, rfl, hc⟩ hx

/-- **A text with returns** is munched into the pieces of the text without, with the returns put
in. -/
theorem withReturns (h : Munch text pieces rest) (hrest : rest.head? ≠ some '\n') :
    Munch (Text.withReturns text) (returned pieces) (Text.withReturns rest) := by
  induction pieces using returned.induct generalizing text with
  | case1 =>
    cases h
    exact .done
  | case2 lexeme line pieces ih =>
    obtain ⟨tail, rfl, hl, ht⟩ := cons_iff.mp h
    obtain ⟨tail, rfl, hl', ht'⟩ := cons_iff.mp ht
    obtain rfl : line = ['\n'] := hl'.spells.eq_of_punctuation rfl
    have hsame := hl.spells.withReturns_eq (by decide) (by decide)
    obtain ⟨body, rfl, hbody⟩ := hl.spells.exists_comment rfl
    have hcomment : Spells .comment ('/' :: '/' :: body ++ ['\r']) :=
      .comment (forall_mem_concat hbody (by decide))
    have hall : Munch ('/' :: '/' :: body ++ ['\r'] ++ (['\n'] ++ Text.withReturns tail)) _ _ :=
      .lexeme ((isLongest_append_iff hcomment).mpr not_extends_newline)
        (.lexeme (isLongest_newline_cons _) (ih ht'))
    rw [withReturns_append, hsame]
    rwa [List.append_assoc] at hall
  | case3 line pieces ih =>
    obtain ⟨tail, rfl, hl, ht⟩ := cons_iff.mp h
    obtain rfl : line = ['\n'] := hl.spells.eq_of_punctuation rfl
    have hreturn : IsLongest .carriageReturn ['\r'] (['\r'] ++ '\n' :: Text.withReturns tail) :=
      (isLongest_append_iff (.punctuation rfl)).mpr not_extends_newline
    exact .lexeme hreturn (.lexeme (isLongest_newline_cons _) (ih ht))
  | case4 kind lexeme pieces hcomment hline ih =>
    obtain ⟨tail, rfl, hl, ht⟩ := cons_iff.mp h
    have hx := (isLongest_append_iff hl.spells).mp hl
    have hx' : ¬ Extends kind (Text.withReturns lexeme) (Text.withReturns tail) := by
      by_cases hk : kind = .comment
      · obtain rfl : tail = [] := ht.eq_nil_of_comment hrest (hk ▸ hx) fun line pieces hp =>
          hcomment line pieces hp hk
        exact not_extends_nil
      · exact fun hx' => hx (extends_withReturns hx' hk)
    rw [withReturns_append, returned]
    · exact .lexeme ((isLongest_append_iff (hl.spells.withReturns hline)).mpr hx') (ih ht)
    · exact hcomment
    · exact hline

end Munch

end Lexeme

end LoxTokenizer
