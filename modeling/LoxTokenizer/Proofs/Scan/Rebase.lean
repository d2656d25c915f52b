import LoxTokenizer.Proofs.Scan.Run

/-!
# Places in a text and in the text behind another

A scan counts lines, columns and bytes from where it starts. Reading `b` behind `a` gives the same
tokens at other places: later by the bytes and the line feeds of `a`, and on the first line of `b`
by the columns of the last line of `a`.

* `Position.rebase`: a place in `b`, as a place in `a ++ b`. `rebase_start` and `rebase_after` show
  that it is the place that reading `a` first leads to.
* `Position.relativeTo`: back to a place in `b`, from the place where `b` starts.
* **`Token.placed_rebase`**: placed tokens, rebased, are placed.
* **`Token.first_rebase_error`**: and so are the two errors of a run.
-/

namespace LoxTokenizer

open Lexeme

attribute [ext] Position

namespace Position

/-- A place in a text, as a place in that text behind `a`. A place on the first line is behind the
last line of `a`; a place on a later line keeps its column. -/
def rebase (a : List Char) (p : Position) : Position where
  line := p.line + a.count '\n'
  column := if p.line = 1 then p.column + ((start.after a).column - 1) else p.column
  offset := p.offset + Text.byteLength a

/-- A place in a text, counted from another place of it. A place on the same line loses the columns
before that place; a place on a later line keeps its column. -/
def relativeTo (p base : Position) : Position where
  line := p.line - (base.line - 1)
  column := if p.line = base.line then p.column - (base.column - 1) else p.column
  offset := p.offset - base.offset

theorem line_advance (p : Position) (c : Char) :
    (p.advance c).line = p.line + if c = '\n' then 1 else 0 := by
  unfold advance
  split <;> rfl

/-- **Lines are counted by line feeds.** -/
theorem line_after (p : Position) (text : List Char) :
    (p.after text).line = p.line + text.count '\n' := by
  induction text generalizing p with
  | nil => rfl
  | cons c text ih =>
    rw [after_cons, ih, line_advance, List.count_cons]
    by_cases hc : c = '\n'
    · simp [hc]
      omega
    · simp [hc]

theorem one_le_line_after {p : Position} (h : 1 ≤ p.line) (text : List Char) :
    1 ≤ (p.after text).line := by
  rw [line_after]
  exact Nat.le_add_right_of_le h

theorem one_le_column_after {p : Position} (h : 1 ≤ p.column) (text : List Char) :
    1 ≤ (p.after text).column := by
  induction text generalizing p with
  | nil => exact h
  | cons c text ih =>
    rw [after_cons]
    apply ih
    unfold advance
    split
    · exact Nat.le_refl 1
    · exact Nat.le_succ_of_le h

variable {a : List Char} {p : Position}

theorem column_rebase_of_first (h : p.line = 1) :
    (p.rebase a).column = p.column + ((start.after a).column - 1) :=
  if_pos h

/-- The start of the text behind `a` is the end of `a`. -/
theorem rebase_start (a : List Char) : start.rebase a = start.after a := by
  have hone : 1 ≤ (start.after a).column := one_le_column_after (Nat.le_refl 1) a
  have hline : (start.rebase a).line = (start.after a).line := (line_after start a).symm
  have hcolumn : (start.rebase a).column = (start.after a).column :=
    (column_rebase_of_first rfl).trans (Nat.add_sub_cancel' hone)
  have hoffset : (start.rebase a).offset = (start.after a).offset := (offset_after start a).symm
  exact Position.ext hline hcolumn hoffset

theorem rebase_advance (h : 1 ≤ p.line) (c : Char) :
    (p.rebase a).advance c = (p.advance c).rebase a := by
  unfold advance rebase
  by_cases hc : c = '\n'
  · have hne : p.line + 1 ≠ 1 := by omega
    simp only [if_pos hc, if_neg hne]
    congr 1 <;> omega
  · simp only [if_neg hc]
    by_cases hl : p.line = 1
    · simp only [if_pos hl]
      congr 1 <;> omega
    · simp only [if_neg hl]
      congr 1
      omega

/-- **Reading goes on behind `a`** as it does from the start. -/
theorem rebase_after (h : 1 ≤ p.line) (text : List Char) :
    (p.rebase a).after text = (p.after text).rebase a := by
  induction text generalizing p with
  | nil => rfl
  | cons c text ih =>
    rw [after_cons, after_cons, rebase_advance h]
    refine ih ?_
    rw [line_advance]
    exact Nat.le_add_right_of_le h

/-- Counting from the end of `a` undoes the rebasing. -/
theorem relativeTo_rebase (a : List Char) (p : Position) :
    (p.rebase a).relativeTo (start.after a) = p := by
  have hline : (start.after a).line = 1 + a.count '\n' := line_after start a
  have hoffset : (start.after a).offset = 0 + Text.byteLength a := offset_after start a
  obtain ⟨line, column, offset⟩ := p
  unfold relativeTo rebase
  simp only [hline, hoffset]
  by_cases h : line = 1
  · rw [if_pos (by omega), if_pos h]
    congr 1 <;> omega
  · rw [if_neg (by omega), if_neg h]
    congr 1 <;> omega

end Position

/-- A stretch of a text, as one of that text behind `a`. -/
def Span.rebase (a : List Char) (s : Span) : Span :=
  ⟨s.start.rebase a, s.stop.rebase a⟩

/-- An error in a text, as one in that text behind `a`. -/
def ScanError.rebase (a : List Char) : ScanError → ScanError
  | .unterminatedString span => .unterminatedString (span.rebase a)
  | .unexpectedCharacter c span => .unexpectedCharacter c (span.rebase a)
  | .invalidNumber lexeme span => .invalidNumber lexeme (span.rebase a)
  | .sourceTooLarge bytes => .sourceTooLarge bytes

namespace Token

/-- A token of a text, as one of that text behind `a`. -/
def rebase (a : List Char) (t : Token) : Token :=
  { t with span := t.span.rebase a }

/-- A token of a text, with its places counted from another place of it. -/
def relativeTo (base : Position) (t : Token) : Token :=
  { t with span := ⟨t.span.start.relativeTo base, t.span.stop.relativeTo base⟩ }

variable {a : List Char} {place : Position}

theorem map_piece_rebase (tokens : List Token) :
    (tokens.map (rebase a)).map piece = tokens.map piece := by
  rw [List.map_map]
  rfl

theorem relativeTo_rebase (a : List Char) (t : Token) :
    (t.rebase a).relativeTo (Position.start.after a) = t := by
  obtain ⟨kind, lexeme, literal, ⟨start, stop⟩⟩ := t
  simp [relativeTo, rebase, Span.rebase, Position.relativeTo_rebase]

theorem IsAt.rebase {t : Token} (h : t.IsAt place) (hl : 1 ≤ place.line) :
    (t.rebase a).IsAt (place.rebase a) where
  span := by
    rw [Position.rebase_after hl]
    show t.span.rebase a = _
    rw [h.span]
    rfl
  literal := h.literal

/-- **Placed tokens, rebased, are placed.** -/
theorem placed_rebase {tokens : List Token} (h : Placed place tokens) (hl : 1 ≤ place.line) :
    Placed (place.rebase a) (tokens.map (rebase a)) := by
  induction tokens generalizing place with
  | nil => trivial
  | cons t tokens ih =>
    refine ⟨h.1.rebase hl, ih h.2 ?_⟩
    rw [h.1.span]
    exact Position.one_le_line_after hl _

/-- **The error where no token starts**, rebased, is the error there. -/
theorem first_rebase_error {c : Char} {rest : List Char} {e : ScanError} (hl : 1 ≤ place.line)
    (h : Token.first place c rest = .error e) :
    Token.first (place.rebase a) c rest = .error (e.rebase a) := by
  rw [first_eq_error_iff] at h ⊢
  rcases h with ⟨hr, rfl⟩ | ⟨hr, rfl⟩
  · refine Or.inl ⟨hr, ?_⟩
    rw [Position.rebase_after hl]
    rfl
  · refine Or.inr ⟨hr, ?_⟩
    rw [Position.rebase_advance hl]
    rfl

end Token

end LoxTokenizer
