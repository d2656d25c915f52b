import LoxTokenizer.Proofs.Lexeme.Longest

/-!
# Taking longest lexemes off a text

`Munch text pieces rest`: taking the longest lexeme off the front of `text` again and again gives
`pieces`, each a kind and a lexeme, and leaves `rest`. Each lexeme is the longest with all of the
remaining text behind it, so a munch cannot be joined or cut at will:

* `Munch.trans` and `Munch.split`: munches are joined and cut between two lexemes when the text
  behind stays.
* `Munch.cut`: the text behind may always be cut short.
* **`Munch.extend`**: the text behind may be made longer when it does not glue to the pieces.
* **`Munch.not_glue`**: and only then.
* `glue_concat_iff`: glueing, told by the last piece.
* `Munch.unique`: a text is munched in one way.
-/

namespace LoxTokenizer.Lexeme

open CharClass

/-- **Maximal munch**: longest lexemes, taken off the front of a text until `rest` is left. -/
inductive Munch : List Char → List (TokenKind × List Char) → List Char → Prop where
  | done {rest : List Char} : Munch rest [] rest
  | lexeme {kind : TokenKind} {lexeme text rest : List Char}
      {pieces : List (TokenKind × List Char)} (h : IsLongest kind lexeme (lexeme ++ text))
      (ht : Munch text pieces rest) : Munch (lexeme ++ text) ((kind, lexeme) :: pieces) rest

/-- The text that pieces are made of. -/
def spelling (pieces : List (TokenKind × List Char)) : List Char :=
  pieces.flatMap fun piece => piece.2

@[simp] theorem spelling_nil : spelling [] = [] := rfl

@[simp] theorem spelling_cons (piece : TokenKind × List Char)
    (pieces : List (TokenKind × List Char)) :
    spelling (piece :: pieces) = piece.2 ++ spelling pieces := rfl

@[simp] theorem spelling_append (pieces more : List (TokenKind × List Char)) :
    spelling (pieces ++ more) = spelling pieces ++ spelling more := by
  simp [spelling]

namespace Munch

variable {text middle rest behind : List Char} {pieces more : List (TokenKind × List Char)}
  {kind : TokenKind} {lexeme : List Char}

/-- Nothing is lost. -/
theorem eq_append (h : Munch text pieces rest) : text = spelling pieces ++ rest := by
  induction h with
  | done => rfl
  | lexeme _ _ ih => rw [spelling_cons, List.append_assoc, ← ih]

theorem eq_spelling (h : Munch text pieces []) : text = spelling pieces := by
  simpa using h.eq_append

theorem cons_iff : Munch text ((kind, lexeme) :: pieces) rest ↔
    ∃ tail, text = lexeme ++ tail ∧ IsLongest kind lexeme text ∧ Munch tail pieces rest := by
  constructor
  · intro h
    cases h with
    | lexeme h ht => exact ⟨_, rfl, h, ht⟩
  · rintro ⟨tail, rfl, h, ht⟩
    exact .lexeme h ht

theorem trans (h : Munch text pieces middle) (h' : Munch middle more rest) :
    Munch text (pieces ++ more) rest := by
  induction h with
  | done => exact h'
  | lexeme h _ ih => exact .lexeme h (ih h')

theorem split (h : Munch text (pieces ++ more) rest) :
    ∃ middle, Munch text pieces middle ∧ Munch middle more rest := by
  induction pieces generalizing text with
  | nil => exact ⟨text, .done, h⟩
  | cons piece pieces ih =>
    obtain ⟨tail, rfl, hl, ht⟩ := cons_iff.mp h
    obtain ⟨middle, hp, hm⟩ := ih ht
    exact ⟨middle, .lexeme hl hp, hm⟩

/-- No piece is empty. -/
theorem ne_nil_of_mem (h : Munch text pieces rest) : ∀ piece ∈ pieces, piece.2 ≠ [] := by
  induction h with
  | done => simp
  | lexeme h _ ih => exact List.forall_mem_cons.mpr ⟨h.spells.ne_nil, ih⟩

/-- **One way to munch**: two munches that reach the end of a text agree. -/
theorem unique (h : Munch text pieces []) (h' : Munch text more []) : pieces = more := by
  induction pieces generalizing text more with
  | nil =>
    cases h
    cases more with
    | nil => rfl
    | cons piece more =>
      obtain ⟨tail, hnil, hl, -⟩ := cons_iff.mp h'
      exact absurd (List.append_eq_nil_iff.mp hnil.symm).1 hl.spells.ne_nil
  | cons piece pieces ih =>
    obtain ⟨kind, lexeme⟩ := piece
    obtain ⟨tail, rfl, hl, ht⟩ := cons_iff.mp h
    cases more with
    | nil =>
      have hnil : lexeme ++ tail = [] := h'.eq_spelling
      exact absurd (List.append_eq_nil_iff.mp hnil).1 hl.spells.ne_nil
    | cons piece' more =>
      obtain ⟨kind', lexeme'⟩ := piece'
      obtain ⟨tail', htext, hl', ht'⟩ := cons_iff.mp h'
      obtain rfl : lexeme = lexeme' := hl.unique hl'
      obtain rfl : tail = tail' := List.append_cancel_left htext
      obtain rfl : kind = kind' := hl.spells.unique hl'.spells
      rw [ih ht ht']

/-! ## Less text behind -/

/-- **The text behind may be cut short**: with fewer characters to look at, every lexeme ends where
it ended. -/
theorem cut (h : Munch (spelling pieces ++ rest) pieces rest) (hb : behind <+: rest) :
    Munch (spelling pieces ++ behind) pieces behind := by
  induction pieces with
  | nil => exact .done
  | cons piece pieces ih =>
    obtain ⟨kind, lexeme⟩ := piece
    rw [spelling_cons, List.append_assoc] at h ⊢
    obtain ⟨tail, htext, hl, ht⟩ := cons_iff.mp h
    obtain rfl := List.append_cancel_left htext
    exact .lexeme (hl.cut ((List.prefix_append_right_inj _).mpr hb)) (ih ht)

theorem cut_all (h : Munch text pieces rest) : Munch (spelling pieces) pieces [] := by
  obtain rfl := h.eq_append
  simpa using h.cut (List.nil_prefix)

end Munch

/-! ## More text behind -/

/-- **Glueing**: more text behind some pieces would change the last of them, or the last two. The
latter is the case of a numeral and a point that a digit turns into one numeral. -/
inductive Glue : List (TokenKind × List Char) → List Char → Prop where
  | last (earlier : List (TokenKind × List Char)) {kind : TokenKind} {lexeme behind : List Char}
      (h : Extends kind lexeme behind) : Glue (earlier ++ [(kind, lexeme)]) behind
  | point (earlier : List (TokenKind × List Char)) {digits point rest : List Char} {d : Char}
      (hd : '.' ∉ digits) (h : isDigit d = true) :
      Glue (earlier ++ [(.number, digits), (.dot, point)]) (d :: rest)

variable {text behind : List Char} {pieces : List (TokenKind × List Char)}

theorem Glue.cons {piece : TokenKind × List Char} (h : Glue pieces behind) :
    Glue (piece :: pieces) behind := by
  cases h with
  | last earlier h => exact .last (piece :: earlier) h
  | point earlier hd h => exact .point (piece :: earlier) hd h

/-- What glues to a last piece extends it, or makes a decimal numeral of it and the numeral before
it. -/
theorem glue_concat_iff {earlier : List (TokenKind × List Char)} {kind : TokenKind}
    {lexeme : List Char} : Glue (earlier ++ [(kind, lexeme)]) behind ↔
      Extends kind lexeme behind ∨ (kind = .dot ∧ ∃ before digits d rest,
        earlier = before ++ [(.number, digits)] ∧ '.' ∉ digits ∧
          behind = d :: rest ∧ isDigit d = true) := by
  constructor
  · generalize hall : earlier ++ [(kind, lexeme)] = all
    intro h
    cases h with
    | last before h =>
      obtain ⟨-, hlast⟩ := List.append_inj' hall rfl
      cases hlast
      exact Or.inl h
    | @point before digits point rest d hd h =>
      have htwo : before ++ [(.number, digits), (.dot, point)] =
          (before ++ [(.number, digits)]) ++ [(.dot, point)] := by simp
      obtain ⟨hearlier, hlast⟩ := List.append_inj' (hall.trans htwo) rfl
      cases hlast
      exact Or.inr ⟨rfl, before, digits, d, rest, hearlier, hd, rfl, h⟩
  · rintro (h | ⟨rfl, before, digits, d, rest, rfl, hd, rfl, h⟩)
    · exact .last earlier h
    · rw [List.append_assoc]
      exact .point before hd h

/-- What extends a lexeme is within the nearest two characters: more text behind a nonempty one
matters only to a numeral with a lone point behind it. -/
theorem Extends.of_append {kind : TokenKind} {lexeme next : List Char}
    (h : Extends kind lexeme (next ++ behind)) (hne : next ≠ []) :
    Extends kind lexeme next ∨ (kind = .number ∧ '.' ∉ lexeme ∧ next = ['.'] ∧
      ∃ d rest, behind = d :: rest ∧ isDigit d = true) := by
  obtain ⟨c, tail, rfl⟩ := List.exists_cons_of_ne_nil hne
  unfold Extends at h ⊢
  split at h
  case h_2 =>
    rcases h with h | ⟨hno, d, rest, heq, hd⟩
    · exact Or.inl (Or.inl h)
    · obtain ⟨rfl, htail⟩ := List.cons.inj heq
      cases tail with
      | nil => exact Or.inr ⟨rfl, hno, rfl, d, rest, htail, hd⟩
      | cons e tail =>
        obtain ⟨rfl, -⟩ := List.cons.inj htail
        exact Or.inl (Or.inr ⟨hno, _, tail, rfl, hd⟩)
  all_goals exact Or.inl h

/-- The only lexeme of the kind of a character that stands for itself is that character. -/
theorem Spells.eq_of_punctuation {kind : TokenKind} {lexeme : List Char} {c : Char}
    (h : Spells kind lexeme) (hc : TokenKind.punctuation? c = some kind) : lexeme = [c] := by
  cases h with
  | punctuation h => rw [TokenKind.punctuation?_inj h hc]
  | operator h | operatorEqual h =>
    unfold TokenKind.punctuation? at hc
    split at hc <;> cases hc <;> cases h
  | @word _ d rest h =>
    rcases wordKind_identifier_or_keyword (d :: rest) with hword | hword
    · rw [← h, hword] at hc
      unfold TokenKind.punctuation? at hc
      split at hc <;> cases hc
    · rw [h] at hword
      exact absurd hc ((TokenKind.isKeyword_iff.mp hword).1 c)
  | _ =>
    unfold TokenKind.punctuation? at hc
    split at hc <;> cases hc

theorem isLongest_point : IsLongest .dot ['.'] (['.'] ++ []) :=
  (isLongest_append_iff (.punctuation rfl)).mpr not_extends_nil

namespace Munch

/-- **More text behind**: text that does not glue to the pieces leaves each of them as it is. -/
theorem extend (h : Munch text pieces []) (hg : ¬ Glue pieces behind) :
    Munch (text ++ behind) pieces behind := by
  generalize hr : ([] : List Char) = rest at h
  induction h with
  | done => rw [← hr]; exact .done
  | @lexeme kind lexeme text rest pieces h ht ih =>
    have hx : ¬ Extends kind lexeme (text ++ behind) := by
      intro hx
      by_cases hne : text = []
      · -- The last piece: it is extended by the new text alone.
        subst hne hr
        obtain rfl : [] = pieces := Munch.done.unique ht
        exact hg (.last [] hx)
      · rcases hx.of_append hne with hx | ⟨rfl, hno, rfl, d, tail, rfl, hd⟩
        · exact (isLongest_append_iff h.spells).mp h hx
        · -- A numeral before a lone point, which is then the last piece but one.
          subst hr
          obtain rfl : [(.dot, ['.'])] = pieces := (Munch.lexeme isLongest_point .done).unique ht
          exact hg (.point [] hno hd)
    rw [List.append_assoc]
    exact .lexeme ((isLongest_append_iff h.spells).mpr hx) (ih (fun hg' => hg hg'.cons) hr)

/-- **Only text that does not glue** leaves the pieces as they are. -/
theorem not_glue (h : Munch text pieces behind) : ¬ Glue pieces behind := by
  intro hg
  cases hg with
  | last earlier hx =>
    obtain ⟨middle, -, hm⟩ := h.split
    obtain ⟨tail, rfl, hl, ht⟩ := cons_iff.mp hm
    cases ht
    exact (isLongest_append_iff hl.spells).mp hl hx
  | point earlier hno hd =>
    obtain ⟨middle, -, hm⟩ := h.split
    obtain ⟨tail, rfl, hl, ht⟩ := cons_iff.mp hm
    obtain ⟨tail', rfl, hl', ht'⟩ := cons_iff.mp ht
    cases ht'
    obtain rfl : _ = ['.'] := hl'.spells.eq_of_punctuation rfl
    exact (isLongest_append_iff hl.spells).mp hl (Or.inr ⟨hno, _, _, rfl, hd⟩)

end Munch

end LoxTokenizer.Lexeme
