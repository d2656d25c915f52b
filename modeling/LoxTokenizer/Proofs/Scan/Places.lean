import LoxTokenizer.Proofs.Scan.EndMarker
import LoxTokenizer.Proofs.Scan.Rebase
import LoxTokenizer.Proofs.Scan.Tiling
import Mathlib.Data.List.DropRight

/-!
# Places are told by the text before them

A scan counts as it reads, and takes the line of a token at its end but the column and the offset at
its start. Here the three are given by the source alone, with no word on reading: a line by the line
feeds before a place, a column by the characters behind the last of them, an offset by the bytes.

* `Position.IsIn`: a place whose line and column are those of its offset in the source.
* `LocatedIn`: tokens whose lines, columns and offsets are those of the source.
* **`Position.start_after`**: the counters of a scan are counts of the text that it has read.
* `Token.located_of_placed`: placed tokens are located, the marker of the end among them.
* **`scan_located`**: the tokens of a scan, marked or not, are located, and so are both ends of the
  span of an error.
-/

namespace LoxTokenizer

open Lexeme

namespace Text

/-- The characters of a text behind its last line feed: all of them, if it has none. -/
def lastLine (text : List Char) : List Char :=
  text.rtakeWhile (· != '\n')

theorem lastLine_concat_newline (text : List Char) : lastLine (text ++ ['\n']) = [] :=
  List.rtakeWhile_concat_neg _ _ _ (by simp)

theorem lastLine_concat {c : Char} (h : c ≠ '\n') (text : List Char) :
    lastLine (text ++ [c]) = lastLine text ++ [c] :=
  List.rtakeWhile_concat_pos _ _ _ (by simpa using h)

/-- Text without a line feed goes on with the last line. -/
theorem lastLine_append {more : List Char} (h : '\n' ∉ more) (text : List Char) :
    lastLine (text ++ more) = lastLine text ++ more := by
  induction more using List.reverseRecOn with
  | nil => simp
  | append_singleton more c ih =>
    rw [List.mem_append, List.mem_singleton, not_or] at h
    rw [← List.append_assoc, lastLine_concat (Ne.symm h.2), ih h.1, List.append_assoc]

end Text

/-! ## A place and the text before it -/

namespace Position

/-- The place behind a text, counted from the text as a whole. -/
def behind (text : List Char) : Position where
  line := 1 + text.count '\n'
  column := 1 + (Text.lastLine text).length
  offset := Text.byteLength text

/-- One more character moves the counts as it moves a place. -/
theorem advance_behind (text : List Char) (c : Char) :
    (behind text).advance c = behind (text ++ [c]) := by
  have hoffset : Text.byteLength (text ++ [c]) = Text.byteLength text + c.utf8Size := by simp
  by_cases hc : c = '\n'
  · subst hc
    have hcount : (text ++ ['\n']).count '\n' = text.count '\n' + 1 := by simp
    unfold advance behind
    rw [if_pos rfl, hcount, hoffset, Text.lastLine_concat_newline]
    rfl
  · have hcount : (text ++ [c]).count '\n' = text.count '\n' := by
      simp [List.count_append, hc]
    unfold advance behind
    rw [if_neg hc, hcount, hoffset, Text.lastLine_concat hc, List.length_append]
    rfl

/-- **The counters of a scan are counts of the text** that it has read. -/
theorem start_after (text : List Char) : start.after text = behind text := by
  induction text using List.reverseRecOn with
  | nil => rfl
  | append_singleton text c ih =>
    rw [after_append, ih, after_cons, after_nil, advance_behind]

/-- No character takes less than a byte, so neither count gets ahead of the bytes. -/
theorem line_start_after_le (text : List Char) :
    (start.after text).line ≤ (start.after text).offset + 1 := by
  rw [start_after]
  show 1 + text.count '\n' ≤ Text.byteLength text + 1
  have hcount : text.count '\n' ≤ text.length := List.count_le_length
  have hbytes := Text.length_le_byteLength text
  omega

theorem column_start_after_le (text : List Char) :
    (start.after text).column ≤ (start.after text).offset + 1 := by
  rw [start_after]
  show 1 + (Text.lastLine text).length ≤ Text.byteLength text + 1
  have hline : (Text.lastLine text).length ≤ text.length := (List.rtakeWhile_suffix _ _).length_le
  have hbytes := Text.length_le_byteLength text
  omega

/-- `p` is a place of `source`: its line and column are those of the text that its offset cuts
off. -/
def IsIn (source : List Char) (p : Position) : Prop :=
  ∃ before, Text.slice? source 0 p.offset = some before ∧ p.line = 1 + before.count '\n' ∧
    p.column = 1 + (Text.lastLine before).length

theorem isIn_after (before rest : List Char) : (start.after before).IsIn (before ++ rest) := by
  rw [start_after]
  exact ⟨before, Text.slice?_start before rest, rfl, rfl⟩

end Position

/-! ## Located tokens -/

/-- **Tokens are where the source says.** -/
structure LocatedIn (source : List Char) (tokens : List Token) : Prop where
  /-- The source up to a token is the lexemes before it. The token's offset is the number of its
  bytes, and the token's column counts on from the characters of its last line. -/
  start : ∀ i (hi : i < tokens.length), ∃ before,
    Text.slice? source 0 tokens[i].offset = some before ∧
      String.ofList before = String.join ((tokens.take i).map Token.lexeme) ∧
      tokens[i].offset = Text.byteLength before ∧
      tokens[i].column = 1 + (Text.lastLine before).length
  /-- A token's line counts the line feeds of the source up to the end of the token. -/
  line : ∀ t ∈ tokens, ∃ upto, Text.slice? source 0 t.endOffset = some upto ∧
    t.line = 1 + upto.count '\n'
  line_le : tokens.Pairwise fun t u => t.line ≤ u.line
  /-- A line feed counts once, in the token that it is in, be it a string or a token of its own. -/
  line_next : ∀ i (hi : i < tokens.length) (hnext : i + 1 < tokens.length),
    tokens[i + 1].line = tokens[i].line + tokens[i + 1].lexeme.toList.count '\n'
  /-- No other character starts a line, a carriage return included: a token without a line feed
  takes the next one along its line. -/
  column_next : ∀ i (hi : i < tokens.length) (hnext : i + 1 < tokens.length),
    '\n' ∉ tokens[i].lexeme.toList →
      tokens[i + 1].column = tokens[i].column + tokens[i].lexeme.toList.length

namespace Token

variable {tokens : List Token}

theorem spelling_take_append_drop (tokens : List Token) (i : Nat) :
    spelling ((tokens.take i).map piece) ++ spelling ((tokens.drop i).map piece) =
      spelling (tokens.map piece) := by
  rw [← spelling_append, ← List.map_append, List.take_append_drop]

theorem line_getElem (h : Placed .start tokens) {i : Nat} (hi : i < tokens.length) :
    tokens[i].line = 1 + (spelling ((tokens.take (i + 1)).map piece)).count '\n' := by
  unfold Token.line
  rw [(isAt_getElem h hi).span, spelling_take_succ hi]
  show (Position.after _ _).line = _
  rw [← Position.after_append, Position.start_after]
  rfl

theorem column_getElem (h : Placed .start tokens) {i : Nat} (hi : i < tokens.length) :
    tokens[i].column = 1 + (Text.lastLine (spelling ((tokens.take i).map piece))).length := by
  unfold Token.column
  rw [(isAt_getElem h hi).span, Position.start_after]
  rfl

/-- What the tokens up to an index spell begins what those up to a later one spell. -/
theorem spelling_take_mono (tokens : List Token) {i j : Nat} (hij : i ≤ j) :
    spelling ((tokens.take i).map piece) <+: spelling ((tokens.take j).map piece) := by
  refine ⟨spelling (((tokens.take j).drop i).map piece), ?_⟩
  have htake : tokens.take i = (tokens.take j).take i := by
    rw [List.take_take, Nat.min_eq_left hij]
  rw [htake]
  exact spelling_take_append_drop (tokens.take j) i

/-- **Placed tokens are located** in the text that they spell. -/
theorem located_of_placed (h : Placed .start tokens) :
    LocatedIn (spelling (tokens.map piece)) tokens where
  start i hi := by
    refine ⟨spelling ((tokens.take i).map piece), ?_, ?_, offset_getElem h hi, column_getElem h hi⟩
    · rw [offset_getElem h hi, ← spelling_take_append_drop tokens i]
      exact Text.slice?_start _ _
    · rw [spelling_map_piece, String.ofList_toList]
  line t ht := by
    obtain ⟨i, hi, rfl⟩ := List.getElem_of_mem ht
    refine ⟨spelling ((tokens.take (i + 1)).map piece), ?_, line_getElem h hi⟩
    rw [endOffset_getElem h hi, ← spelling_take_append_drop tokens (i + 1)]
    exact Text.slice?_start _ _
  line_le := by
    rw [List.pairwise_iff_getElem]
    intro i j hi hj hij
    rw [line_getElem h hi, line_getElem h hj]
    have hstarts := spelling_take_mono tokens (Nat.succ_le_succ (Nat.le_of_lt hij))
    exact Nat.add_le_add_left (hstarts.sublist.count_le '\n') 1
  line_next i hi hnext := by
    rw [line_getElem h hnext, line_getElem h hi, spelling_take_succ hnext, List.count_append,
      Nat.add_assoc]
  column_next i hi hnext hno := by
    rw [column_getElem h hnext, column_getElem h hi, spelling_take_succ hi,
      Text.lastLine_append hno, List.length_append, Nat.add_assoc]

end Token

/-! ## The places of a scan -/

open Token

variable {source : String}

theorem located_of_scan {tokens : List Token} (h : scan source = .ok tokens) :
    LocatedIn source.toList tokens := by
  obtain ⟨-, hm, hp⟩ := scan_eq_ok_iff.mp h
  rw [hm.eq_spelling]
  exact located_of_placed hp

/-- The marker is placed behind the other tokens and spells nothing. -/
theorem placed_of_scanWithEof {tokens : List Token} (h : scanWithEof source = .ok tokens) :
    Placed .start tokens ∧ spelling (tokens.map piece) = source.toList := by
  obtain ⟨found, hfound, rfl⟩ := scanWithEof_eq_ok_iff.mp h
  obtain ⟨-, hm, hp⟩ := scan_eq_ok_iff.mp hfound
  constructor
  · rw [placed_append, ← hm.eq_spelling]
    exact ⟨hp, isAt_eof _, trivial⟩
  · rw [List.map_append, spelling_append, ← hm.eq_spelling]
    simp [Token.eof, piece]

theorem located_of_scanWithEof {tokens : List Token} (h : scanWithEof source = .ok tokens) :
    LocatedIn source.toList tokens := by
  obtain ⟨hp, hspell⟩ := placed_of_scanWithEof h
  rw [← hspell]
  exact located_of_placed hp

/-- Both ends of the span of an error are places of the source. -/
theorem isIn_of_scan_error {e : ScanError} (hle : Text.byteLength source.toList ≤ maxSourceLength)
    (h : scan source = .error e) :
    e.span.start.IsIn source.toList ∧ e.span.stop.IsIn source.toList := by
  obtain ⟨tokens, c, rest, hm, -, hfirst⟩ := (scan_eq_error_iff hle).mp h
  set before := spelling (tokens.map piece)
  have hsource : source.toList = before ++ c :: rest := hm.eq_append
  have hstart : (Position.start.after before).IsIn source.toList := by
    rw [hsource]
    exact Position.isIn_after before (c :: rest)
  rcases first_eq_error_iff.mp hfirst with ⟨-, rfl⟩ | ⟨-, rfl⟩
  · refine ⟨hstart, ?_⟩
    show (Position.after _ (c :: rest)).IsIn _
    rw [← Position.after_append, hsource]
    simpa using Position.isIn_after (before ++ c :: rest) []
  · refine ⟨hstart, ?_⟩
    show (Position.after _ [c]).IsIn _
    rw [← Position.after_append, hsource, List.append_cons]
    exact Position.isIn_after (before ++ [c]) rest

/-- **Places are told by the text before them.** Of a source within the size limit: the tokens of a
scan, with the marker of the end or without, have the lines, columns and offsets that counting the
source gives; and the error of a scan starts and stops at places of the source. -/
theorem scan_located (source : String) (hle : Text.byteLength source.toList ≤ maxSourceLength) :
    (∀ tokens, scan source = .ok tokens ∨ scanWithEof source = .ok tokens →
      LocatedIn source.toList tokens) ∧
    ∀ e, scan source = .error e ∨ scanWithEof source = .error e →
      e.span.start.IsIn source.toList ∧ e.span.stop.IsIn source.toList := by
  constructor
  · rintro tokens (h | h)
    · exact located_of_scan h
    · exact located_of_scanWithEof h
  · rintro e (h | h)
    · exact isIn_of_scan_error hle h
    · exact isIn_of_scan_error hle (scanWithEof_eq_error_iff.mp h)

/-- A string over two lines with a two-byte character, a carriage return and a line feed, with the
marker of the end; and a string without its end over two lines behind a comment. -/
theorem scan_located_lines :
    (∃ tokens, scanWithEof "\"é\n\"\r\nx" = .ok tokens ∧ LocatedIn "\"é\n\"\r\nx".toList tokens ∧
      tokens.map (fun t => (t.line, t.column, t.offset)) =
        [(2, 1, 0), (2, 2, 5), (3, 3, 6), (3, 1, 7), (3, 2, 8)]) ∧
      ∃ e, scan "//é\n\"\r\nλ" = .error e ∧ e.span = ⟨⟨2, 1, 5⟩, ⟨3, 2, 10⟩⟩ ∧
        e.span.start.IsIn "//é\n\"\r\nλ".toList ∧ e.span.stop.IsIn "//é\n\"\r\nλ".toList := by
  constructor
  · have hle : Text.byteLength "\"é\n\"\r\nx".toList ≤ maxSourceLength := by decide
    have hs : (scanWithEof "\"é\n\"\r\nx").map
        (List.map fun t => (t.line, t.column, t.offset)) =
        .ok [(2, 1, 0), (2, 2, 5), (3, 3, 6), (3, 1, 7), (3, 2, 8)] := by
      decide +kernel
    cases h : scanWithEof "\"é\n\"\r\nx" with
    | error e =>
      rw [h] at hs
      cases hs
    | ok tokens =>
      rw [h] at hs
      exact ⟨tokens, rfl, (scan_located _ hle).1 tokens (Or.inr h), Except.ok.inj hs⟩
  · have hle : Text.byteLength "//é\n\"\r\nλ".toList ≤ maxSourceLength := by decide
    have he : (scan "//é\n\"\r\nλ").map (List.map piece) =
        .error (.unterminatedString ⟨⟨2, 1, 5⟩, ⟨3, 2, 10⟩⟩) := by
      decide +kernel
    have h := eq_error_of_map he
    exact ⟨_, h, rfl, (scan_located _ hle).2 _ (Or.inl h)⟩

end LoxTokenizer
