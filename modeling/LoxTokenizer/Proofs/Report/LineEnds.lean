import LoxTokenizer.Proofs.Scan.Places
import LoxTokenizer.Report.Lines

/-!
# Line ends as a report counts them

A scan starts a line after a line feed only, a report after seven characters and a pair of them.
Here the line and the column that a report gives to a character are told by the text before it, in
the way in which `Position.behind` tells those of a scan, and the two are compared.

* `lineEnds`, `openLine`: the line ends of a text, and what stands behind the last of them.
* **`lineAt?_lines`**: a report finds a character on the line behind the line ends before it.
* `OnlyNewlines`: a text in which nothing ends a line but a line feed, or a carriage return right
  before one.
* **`lineEnds_eq_count_iff`**: a report counts the lines of a scan exactly in such a text.
* `openLine_eq_lastLine`: and there it counts the columns of a scan as well.
-/

namespace LoxTokenizer.Report

variable {text rest : List Char} {c : Char}

/-! ## Line ends -/

/-- The number of line ends in a text. A carriage return and a line feed are one. -/
def lineEnds : List Char → Nat
  | [] => 0
  | '\r' :: '\n' :: rest => lineEnds rest + 1
  | c :: rest => lineEnds rest + if endsLine c then 1 else 0

/-- The characters of a text behind its last line end: all of them, if it has none. -/
def openLine (text : List Char) : List Char :=
  text.rtakeWhile fun c => !endsLine c

theorem openLine_concat_of_endsLine (h : endsLine c = true) (text : List Char) :
    openLine (text ++ [c]) = [] :=
  List.rtakeWhile_concat_neg _ _ _ (by simp [h])

theorem openLine_concat (h : endsLine c = false) (text : List Char) :
    openLine (text ++ [c]) = openLine text ++ [c] :=
  List.rtakeWhile_concat_pos _ _ _ (by simp [h])

/-- A text whose last line, if it has a line, is ended. -/
def Ended (text : List Char) : Prop :=
  ∀ c ∈ text.getLast?, endsLine c = true

theorem Ended.of_cons (h : Ended (c :: text)) : Ended text := by
  cases text with
  | nil => exact fun _ hc => by cases hc
  | cons d text => rwa [Ended, List.getLast?_cons_cons] at h

/-- A text is its ended lines and the open one. -/
theorem exists_ended (text : List Char) : ∃ ended, text = ended ++ openLine text ∧ Ended ended := by
  induction text using List.reverseRecOn with
  | nil => exact ⟨[], rfl, fun _ hc => by cases hc⟩
  | append_singleton text c ih =>
    cases hc : endsLine c with
    | true =>
      refine ⟨text ++ [c], by rw [openLine_concat_of_endsLine hc, List.append_nil], ?_⟩
      intro d hd
      rw [List.getLast?_concat] at hd
      obtain rfl := Option.some.inj hd
      exact hc
    | false =>
      obtain ⟨ended, htext, hended⟩ := ih
      refine ⟨ended, ?_, hended⟩
      rw [openLine_concat hc, ← List.append_assoc, ← htext]

theorem endsLine_of_mem_openLine (h : c ∈ openLine text) : endsLine c = false := by
  simpa using List.mem_rtakeWhile_imp h

/-! ## The lines of a text -/

/-- A carriage return right before a line feed does not end a line on its own. -/
def StartsPair (c : Char) (rest : List Char) : Prop :=
  c = '\r' ∧ rest.head? = some '\n'

theorem lineEnds_cons (h : ¬ StartsPair c rest) :
    lineEnds (c :: rest) = lineEnds rest + if endsLine c then 1 else 0 := by
  rw [lineEnds]
  rintro rest' rfl rfl
  exact h ⟨rfl, rfl⟩

theorem splitLines_cons (h : ¬ StartsPair c rest) : splitLines (c :: rest) =
    if endsLine c then [c] :: splitLines rest else consFirst c (splitLines rest) := by
  rw [splitLines]
  rintro rest' rfl rfl
  exact h ⟨rfl, rfl⟩

theorem not_startsPair (h : endsLine c = false) (rest : List Char) : ¬ StartsPair c rest := by
  rintro ⟨rfl, -⟩
  cases h

theorem not_startsPair_of_forall (h : ∀ more, c = '\r' → text = '\n' :: more → False) :
    ¬ StartsPair c text := by
  rintro ⟨hc, hhead⟩
  obtain ⟨more, rfl⟩ := List.head?_eq_some_iff.mp hhead
  exact h more hc rfl

theorem not_startsPair_append (h : ¬ StartsPair c text) (hrest : rest.head? ≠ some '\n') :
    ¬ StartsPair c (text ++ rest) := by
  rintro ⟨hc, hhead⟩
  cases text with
  | nil => exact hrest hhead
  | cons d text => exact h ⟨hc, hhead⟩

theorem splitLines_ne_nil (c : Char) (rest : List Char) : splitLines (c :: rest) ≠ [] := by
  intro hnil
  have hflatten := flatten_splitLines (c :: rest)
  rw [hnil] at hflatten
  cases hflatten

theorem ne_nil_of_mem_splitLines (text : List Char) : ∀ line ∈ splitLines text, line ≠ [] := by
  fun_induction splitLines text with
  | case1 => exact fun line hline => by cases hline
  | case2 text ih => exact List.forall_mem_cons.mpr ⟨List.cons_ne_nil _ _, ih⟩
  | case3 c text _ _ ih => exact List.forall_mem_cons.mpr ⟨List.cons_ne_nil _ _, ih⟩
  | case4 c text _ _ ih =>
    cases hlines : splitLines text with
    | nil => exact List.forall_mem_singleton.mpr (List.cons_ne_nil _ _)
    | cons line lines =>
      rw [hlines] at ih
      exact List.forall_mem_cons.mpr ⟨List.cons_ne_nil _ _, (List.forall_mem_cons.mp ih).2⟩

theorem exists_cons_of_ended (h : Ended (c :: text)) (hc : endsLine c = false) :
    ∃ line lines, splitLines text = line :: lines := by
  cases text with
  | nil => exact absurd (h c rfl) (by simp [hc])
  | cons d text => exact List.exists_cons_of_ne_nil (splitLines_ne_nil d text)

/-- **Ended lines** are split off as they are, unless a pair stands over the cut. -/
theorem splitLines_append (hended : Ended text) (hrest : rest.head? ≠ some '\n') :
    splitLines (text ++ rest) = splitLines text ++ splitLines rest := by
  fun_induction splitLines text with
  | case1 => rfl
  | case2 text ih =>
    rw [List.cons_append, List.cons_append, splitLines, ih hended.of_cons.of_cons]
    rfl
  | case3 c text hpair hc ih =>
    have hopen := not_startsPair_append (not_startsPair_of_forall hpair) hrest
    rw [List.cons_append, splitLines_cons hopen, if_pos hc, ih hended.of_cons]
    rfl
  | case4 c text hpair hc ih =>
    have hopen := not_startsPair_append (not_startsPair_of_forall hpair) hrest
    obtain ⟨line, lines, hlines⟩ := exists_cons_of_ended hended (Bool.eq_false_iff.mpr hc)
    rw [List.cons_append, splitLines_cons hopen, if_neg hc, ih hended.of_cons, hlines]
    rfl

/-- There are as many ended lines as line ends. -/
theorem length_splitLines (hended : Ended text) : (splitLines text).length = lineEnds text := by
  fun_induction splitLines text with
  | case1 => rfl
  | case2 text ih => rw [List.length_cons, ih hended.of_cons.of_cons, lineEnds]
  | case3 c text hpair hc ih =>
    rw [List.length_cons, ih hended.of_cons, lineEnds_cons (not_startsPair_of_forall hpair),
      if_pos hc]
  | case4 c text hpair hc ih =>
    obtain ⟨line, lines, hlines⟩ := exists_cons_of_ended hended (Bool.eq_false_iff.mpr hc)
    rw [lineEnds_cons (not_startsPair_of_forall hpair), if_neg hc, ← ih hended.of_cons, hlines]
    rfl

theorem lineEnds_eq_zero (h : ∀ c ∈ text, endsLine c = false) : lineEnds text = 0 := by
  induction text with
  | nil => rfl
  | cons c text ih =>
    obtain ⟨hc, htext⟩ := List.forall_mem_cons.mp h
    rw [lineEnds_cons (not_startsPair hc text), ih htext, hc]
    rfl

/-- What is behind the last line end has none. -/
theorem lineEnds_append (hrest : ∀ c ∈ rest, endsLine c = false) (text : List Char) :
    lineEnds (text ++ rest) = lineEnds text := by
  have hhead : rest.head? ≠ some '\n' := fun h => by
    have hline := hrest _ (List.mem_of_mem_head? h)
    cases hline
  fun_induction lineEnds text with
  | case1 => exact lineEnds_eq_zero hrest
  | case2 text ih => rw [List.cons_append, List.cons_append, lineEnds, ih]
  | case3 c text hpair ih =>
    have hopen := not_startsPair_append (not_startsPair_of_forall hpair) hhead
    rw [List.cons_append, lineEnds_cons hopen, ih]

/-- The first line of a text starts with what is no line end, and the character behind that. -/
theorem exists_splitLines_cons (hopen : ∀ c ∈ text, endsLine c = false) (c : Char)
    (rest : List Char) : ∃ line lines, splitLines (text ++ c :: rest) = line :: lines ∧
      text.length < line.length := by
  induction text with
  | nil =>
    obtain ⟨line, lines, hlines⟩ := List.exists_cons_of_ne_nil (splitLines_ne_nil c rest)
    have hline : line ≠ [] :=
      ne_nil_of_mem_splitLines _ line (hlines ▸ List.mem_cons_self)
    exact ⟨line, lines, hlines, List.length_pos_iff.mpr hline⟩
  | cons d text ih =>
    obtain ⟨hd, htext⟩ := List.forall_mem_cons.mp hopen
    obtain ⟨line, lines, hlines, hlength⟩ := ih htext
    rw [List.cons_append, splitLines_cons (not_startsPair hd _), hd, hlines]
    exact ⟨d :: line, lines, rfl, Nat.succ_lt_succ hlength⟩

/-! ## The line of a character -/

theorem numbered_append (number start : Nat) (before behind : List (List Char)) :
    numbered number start (before ++ behind) = numbered number start before ++
      numbered (number + before.length) (start + before.flatten.length) behind := by
  induction before generalizing number start with
  | nil => rfl
  | cons line before ih =>
    rw [List.cons_append, numbered, ih, numbered, List.cons_append, List.length_cons,
      List.flatten_cons, List.length_append]
    simp only [Nat.add_assoc, Nat.add_comm, Nat.add_left_comm]

theorem le_start_of_mem_numbered {number start : Nat} {lines : List (List Char)} :
    ∀ l ∈ numbered number start lines, start ≤ l.start := by
  induction lines generalizing number start with
  | nil => exact fun l hl => by cases hl
  | cons line lines ih =>
    refine List.forall_mem_cons.mpr ⟨Nat.le_refl _, fun l hl => ?_⟩
    exact (Nat.le_add_right _ _).trans (ih l hl)

/-- The line found is the last one that starts in time. -/
theorem lineAt?_append {before behind : List Line} {l : Line} {offset : Nat}
    (h : l.start ≤ offset) (hbehind : ∀ l' ∈ behind, offset < l'.start) :
    lineAt? (before ++ l :: behind) offset = some l := by
  have hlate : behind.filter (fun l => l.start ≤ offset) = [] :=
    List.filter_eq_nil_iff.mpr fun l' hl' => by simpa using hbehind l' hl'
  unfold lineAt?
  rw [List.filter_append, List.filter_cons_of_pos (by simpa using h), hlate,
    List.getLast?_append, List.getLast?_singleton]
  rfl

/-- Every offset is on a line, if the source has a character. -/
theorem exists_lineAt? (c : Char) (rest : List Char) (offset : Nat) :
    ∃ l, lineAt? (lines (c :: rest)) offset = some l := by
  obtain ⟨line, more, hlines⟩ := List.exists_cons_of_ne_nil (splitLines_ne_nil c rest)
  unfold lineAt? lines
  rw [hlines, numbered, List.filter_cons_of_pos (by simp), ← Option.isSome_iff_exists]
  exact List.getLast?_isSome.mpr (List.cons_ne_nil _ _)

theorem head?_openLine_append (text : List Char) (hc : c ≠ '\n') (rest : List Char) :
    (openLine text ++ c :: rest).head? ≠ some '\n' := by
  intro hhead
  cases hopen : openLine text with
  | nil =>
    rw [hopen] at hhead
    exact hc (Option.some.inj hhead)
  | cons d more =>
    rw [hopen] at hhead
    obtain rfl : d = '\n' := Option.some.inj hhead
    have hline := endsLine_of_mem_openLine (hopen ▸ List.mem_cons_self : '\n' ∈ openLine text)
    cases hline

/-- **The line of a character** is the one behind the line ends before it. -/
theorem lineAt?_lines (text : List Char) (hc : c ≠ '\n') (rest : List Char) :
    ∃ chars, lineAt? (lines (text ++ c :: rest)) text.length =
      some ⟨1 + lineEnds text, text.length - (openLine text).length, chars⟩ := by
  obtain ⟨ended, htext, hended⟩ := exists_ended text
  obtain ⟨line, more, hlines, hlength⟩ := exists_splitLines_cons
    (fun _ => endsLine_of_mem_openLine : ∀ c ∈ openLine text, endsLine c = false) c rest
  have hsplit : splitLines (text ++ c :: rest) = splitLines ended ++ line :: more := by
    rw [← hlines, ← splitLines_append hended (head?_openLine_append text hc rest),
      ← List.append_assoc, ← htext]
  have hcount : lineEnds text = (splitLines ended).length := by
    rw [length_splitLines hended, htext]
    exact lineEnds_append (fun _ => endsLine_of_mem_openLine) ended
  have hstart : text.length - (openLine text).length = ended.length := by
    have hsum := congrArg List.length htext
    rw [List.length_append] at hsum
    omega
  refine ⟨line, ?_⟩
  unfold lines
  rw [hsplit, numbered_append, numbered, flatten_splitLines, hcount, hstart, Nat.zero_add]
  apply lineAt?_append
  · show ended.length ≤ text.length
    omega
  · intro l hl
    have hle := le_start_of_mem_numbered l hl
    omega

/-! ## Line ends that a scan counts as well -/

/-- **Only line feeds end a line** of the text, alone or right behind a carriage return. -/
def OnlyNewlines : List Char → Prop
  | [] => True
  | c :: rest => (endsLine c = true → c = '\n' ∨ StartsPair c rest) ∧ OnlyNewlines rest

theorem count_newline_le_lineEnds (text : List Char) : text.count '\n' ≤ lineEnds text := by
  fun_induction lineEnds text with
  | case1 => exact Nat.le_refl 0
  | case2 rest ih => simpa using ih
  | case3 c rest _ ih =>
    by_cases hc : c = '\n'
    · subst hc
      rw [List.count_cons_self]
      exact Nat.add_le_add ih (Nat.le_refl 1)
    · rw [List.count_cons_of_ne hc]
      exact ih.trans (Nat.le_add_right _ _)

/-- **A report counts the lines of a scan** exactly where only line feeds end a line. -/
theorem lineEnds_eq_count_iff (text : List Char) :
    lineEnds text = text.count '\n' ↔ OnlyNewlines text := by
  fun_induction lineEnds text with
  | case1 => exact iff_of_true rfl trivial
  | case2 rest ih => simp [OnlyNewlines, StartsPair, ih]
  | case3 c rest hpair ih =>
    have hopen := not_startsPair_of_forall hpair
    by_cases hc : c = '\n'
    · subst hc
      have hends : endsLine '\n' = true := rfl
      simp [OnlyNewlines, hends, ih]
    · have hle := count_newline_le_lineEnds rest
      rw [List.count_cons_of_ne hc, OnlyNewlines]
      cases hends : endsLine c with
      | true =>
        refine iff_of_false ?_ ?_
        · rw [if_pos rfl]
          omega
        · rintro ⟨h, -⟩
          exact (h rfl).elim hc hopen
      | false => simp [ih]

/-- A text without its last character, unless this is the second of a pair. -/
theorem OnlyNewlines.of_concat (hc : c ≠ '\n') (h : OnlyNewlines (text ++ [c])) :
    OnlyNewlines text := by
  induction text with
  | nil => trivial
  | cons d text ih =>
    obtain ⟨hd, htext⟩ := h
    refine ⟨fun hends => ?_, ih htext⟩
    refine (hd hends).imp_right fun ⟨hreturn, hhead⟩ => ⟨hreturn, ?_⟩
    cases text with
    | nil => exact absurd (Option.some.inj hhead) hc
    | cons _ _ => exact hhead

theorem OnlyNewlines.eq_newline_of_concat (h : OnlyNewlines (text ++ [c]))
    (hc : endsLine c = true) : c = '\n' := by
  induction text with
  | nil =>
    rcases h.1 hc with hc | ⟨-, hhead⟩
    · exact hc
    · cases hhead
  | cons d text ih => exact ih h.2

/-- Where only line feeds end a line, the columns of a report are those of a scan. -/
theorem openLine_eq_lastLine (h : OnlyNewlines text) : openLine text = Text.lastLine text := by
  induction text using List.reverseRecOn with
  | nil => rfl
  | append_singleton text c ih =>
    by_cases hc : c = '\n'
    · subst hc
      rw [openLine_concat_of_endsLine rfl, Text.lastLine_concat_newline]
    · have hends : endsLine c = false :=
        Bool.eq_false_iff.mpr fun hends => hc (h.eq_newline_of_concat hends)
      rw [openLine_concat hends, Text.lastLine_concat hc, ih (h.of_concat hc)]

end LoxTokenizer.Report
