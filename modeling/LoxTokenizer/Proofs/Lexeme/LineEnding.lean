import LoxTokenizer.Proofs.Lexeme.Fault

/-!
# Line endings behind a text

A line feed is a lexeme of its own behind every text, and nothing glues to it, so a text is munched
line by line wherever its lines are. A carriage return is a lexeme of its own as well, except behind
a comment, which takes it in. Either way the pieces that carry a meaning are the same with and
without the ending of a line.

* `significant`: the pieces that are neither white space nor comments.
* `Munch.newline`, `Munch.carriageReturn`: a line feed or a carriage return behind a text.
* **`Munch.ending`**: any line feeds and carriage returns behind a text.
* `not_glue_newline`, `not_glue_of_newline`: nothing glues to a line feed, before or behind it.
-/

namespace LoxTokenizer.Lexeme

open CharClass

/-- The pieces that are neither white space nor comments. -/
def significant (pieces : List (TokenKind × List Char)) : List (TokenKind × List Char) :=
  pieces.filter fun piece => !piece.1.isTrivia

variable {text rest next behind : List Char} {pieces more : List (TokenKind × List Char)}
  {kind : TokenKind} {lexeme : List Char}

@[simp] theorem significant_nil : significant [] = [] := rfl

@[simp] theorem significant_append : significant (pieces ++ more) =
    significant pieces ++ significant more :=
  List.filter_append ..

theorem significant_concat_trivia (h : kind.isTrivia = true) :
    significant (pieces ++ [(kind, lexeme)]) = significant pieces := by
  simp [significant, h]

/-! ## What glues to a line ending -/

/-- No lexeme goes on into a line feed. -/
theorem not_extends_newline : ¬ Extends kind lexeme ('\n' :: rest) := by
  have hdigit : isDigit '\n' = false := by decide
  have hpart : isWordPart '\n' = false := by decide
  unfold Extends
  split <;> simp [hdigit, hpart]

theorem not_glue_newline : ¬ Glue pieces ('\n' :: rest) := by
  intro hg
  cases hg with
  | last earlier hx => exact not_extends_newline hx
  | point earlier hno hd => exact absurd hd (by decide)

/-- Nothing goes on from a line feed. -/
theorem not_glue_of_newline : ¬ Glue (pieces ++ [(.newline, lexeme)]) behind := by
  rw [glue_concat_iff]
  rintro (⟨hword, -⟩ | ⟨hdot, -⟩)
  · exact absurd hword (by decide)
  · cases hdot

theorem separates_carriageReturn : Separates '\r' := by
  unfold Separates
  decide

/-- **What glues, glues early**: text behind a nonempty one that is not a lone point has no say in
whether something glues. -/
theorem Glue.of_append (h : Glue pieces (next ++ behind)) (hne : next ≠ [])
    (hpoint : next ≠ ['.']) : Glue pieces next := by
  generalize htext : next ++ behind = text at h
  cases h with
  | last earlier hx =>
    rw [← htext] at hx
    rcases hx.of_append hne with hx | ⟨-, -, hp, -⟩
    · exact .last earlier hx
    · exact absurd hp hpoint
  | point earlier hno hd =>
    obtain ⟨c, tail, rfl⟩ := List.exists_cons_of_ne_nil hne
    cases htext
    exact .point earlier hno hd

/-! ## Munching a line ending -/

/-- A comment is two slashes and a text without line feeds. -/
theorem Spells.exists_comment (h : Spells kind lexeme) (hk : kind = .comment) :
    ∃ body, lexeme = '/' :: '/' :: body ∧ ∀ c ∈ body, c ≠ '\n' := by
  cases h with
  | punctuation h =>
    rw [hk] at h
    unfold TokenKind.punctuation? at h
    split at h <;> cases h
  | operator h => cases h <;> cases hk
  | operatorEqual h => cases h <;> cases hk
  | @comment body h => exact ⟨body, rfl, h⟩
  | @word _ c rest h =>
    have hword := wordKind_identifier_or_keyword (c :: rest)
    rw [h, hk] at hword
    exact absurd hword (by decide)
  | _ => cases hk

theorem isLongest_newline : IsLongest .newline ['\n'] (['\n'] ++ []) :=
  (isLongest_append_iff (.punctuation rfl)).mpr not_extends_nil

theorem isLongest_carriageReturn : IsLongest .carriageReturn ['\r'] (['\r'] ++ []) :=
  (isLongest_append_iff (.punctuation rfl)).mpr not_extends_nil

namespace Munch

/-- **A line feed behind a text** is a lexeme of its own. -/
theorem newline (h : Munch text pieces []) :
    Munch (text ++ ['\n']) (pieces ++ [(.newline, ['\n'])]) [] :=
  (h.extend not_glue_newline).trans (.lexeme isLongest_newline .done)

/-- A carriage return behind a last comment is a part of it. -/
theorem comment_carriageReturn (h : Munch text (pieces ++ [(.comment, lexeme)]) []) :
    Munch (text ++ ['\r']) (pieces ++ [(.comment, lexeme ++ ['\r'])]) [] := by
  obtain ⟨middle, hearlier, hlast⟩ := h.split
  obtain ⟨tail, rfl, hl, ht⟩ := cons_iff.mp hlast
  cases ht
  rw [List.append_nil] at hearlier
  obtain ⟨body, rfl, hbody⟩ := hl.spells.exists_comment rfl
  have hlonger : Spells .comment ('/' :: '/' :: body ++ ['\r']) :=
    .comment (forall_mem_concat hbody (by decide))
  -- What is before the comment ends where it ended, since a comment starts with two slashes still.
  have hglue : ¬ Glue pieces ('/' :: '/' :: body ++ ['\r']) := fun hg =>
    hearlier.not_glue (hg.of_append (List.cons_ne_nil _ _) (by simp))
  have hpieces := hearlier.cut_all.extend hglue
  rw [← List.append_assoc, ← hearlier.eq_append] at hpieces
  refine hpieces.trans ?_
  have hlast : Munch ('/' :: '/' :: body ++ ['\r'] ++ [])
      [(.comment, '/' :: '/' :: body ++ ['\r'])] [] :=
    .lexeme ((isLongest_append_iff hlonger).mpr not_extends_nil) .done
  rwa [List.append_nil] at hlast

/-- **A carriage return behind a text** is a lexeme of its own or a part of a comment. -/
theorem carriageReturn (h : Munch text pieces []) :
    ∃ more, Munch (text ++ ['\r']) more [] ∧ significant more = significant pieces := by
  by_cases hg : Glue pieces ['\r']
  · obtain ⟨⟨kind, lexeme⟩, hlast, hkind⟩ := (glue_iff_of_separates separates_carriageReturn).mp hg
    obtain ⟨earlier, rfl⟩ := List.getLast?_eq_some_iff.mp hlast
    obtain rfl : kind = .comment := hkind
    refine ⟨_, h.comment_carriageReturn, ?_⟩
    rw [significant_concat_trivia rfl, significant_concat_trivia rfl]
  · exact ⟨_, (h.extend hg).trans (.lexeme isLongest_carriageReturn .done),
      significant_concat_trivia rfl⟩

/-- **Line endings behind a text** leave the pieces that carry a meaning as they are. -/
theorem ending {ending : List Char} (h : Munch text pieces [])
    (hending : ∀ c ∈ ending, c = '\n' ∨ c = '\r') :
    ∃ more, Munch (text ++ ending) more [] ∧ significant more = significant pieces := by
  induction ending generalizing text pieces with
  | nil => exact ⟨pieces, by rwa [List.append_nil], rfl⟩
  | cons c ending ih =>
    obtain ⟨hc, hothers⟩ := List.forall_mem_cons.mp hending
    obtain ⟨next, hnext, hsame⟩ : ∃ next, Munch (text ++ [c]) next [] ∧
        significant next = significant pieces := by
      rcases hc with rfl | rfl
      · exact ⟨_, h.newline, significant_concat_trivia rfl⟩
      · exact h.carriageReturn
    obtain ⟨more, hmore, hsame'⟩ := ih hnext hothers
    refine ⟨more, ?_, hsame'.trans hsame⟩
    rwa [List.append_assoc] at hmore

end Munch

end LoxTokenizer.Lexeme
