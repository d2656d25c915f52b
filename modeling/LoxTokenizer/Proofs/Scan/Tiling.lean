import LoxTokenizer.Proofs.Scan.MaximalMunch

/-!
# The tokens of a scan tile the source

A scan loses nothing and repeats nothing: the lexemes are the source, cut between characters. The
offsets are counted character by character, so that they agree with the bytes of the lexemes is
what makes a token's slice of the source its lexeme.

* `Token.isAt_getElem`: a token is at the place after the text of the tokens before it.
* `Token.offset_getElem`, `Token.endOffset_getElem`: the same in bytes.
* **`scan_tiles`**: the tokens of a scan tile the source (`Tiles`).
-/

namespace LoxTokenizer

open Lexeme

namespace Text

/-- Byte `n` of a text is between two characters, or at one of the ends. -/
def IsCut (text : List Char) (n : Nat) : Prop :=
  ∃ before behind, text = before ++ behind ∧ byteLength before = n

theorem slice?_append (before middle behind : List Char) :
    slice? (before ++ middle ++ behind) (byteLength before) (byteLength (before ++ middle)) =
      some middle := by
  have hlen : byteLength (before ++ middle) - byteLength before = byteLength middle := by
    rw [byteLength_append]
    omega
  unfold slice?
  rw [if_pos (by rw [byteLength_append]; omega), List.append_assoc, splitAt?_byteLength,
    Option.bind_some, hlen, splitAt?_byteLength]
  rfl

theorem slice?_start (before behind : List Char) :
    slice? (before ++ behind) 0 (byteLength before) = some before :=
  slice?_append [] before behind

/-- The bytes counted are those of the string. -/
theorem utf8ByteSize_eq_byteLength (s : String) : s.utf8ByteSize = byteLength s.toList := by
  have hcount : ∀ text : List Char,
      (text.flatMap String.utf8EncodeChar).length = byteLength text := by
    intro text
    induction text with
    | nil => rfl
    | cons c text ih =>
      rw [List.flatMap_cons, List.length_append, ih, String.length_utf8EncodeChar]
      rfl
  conv_lhs => rw [← String.ofList_toList (s := s)]
  rw [← hcount]
  simp [String.utf8ByteSize, String.ofList, List.utf8Encode]

end Text

/-! ## Where a token is -/

namespace Token

variable {place : Position} {tokens : List Token}

theorem spelling_map_piece (tokens : List Token) :
    spelling (tokens.map piece) = (String.join (tokens.map Token.lexeme)).toList := by
  rw [String.toList_join]
  simp [spelling, List.flatMap_map, piece]

/-- A list of tokens around one of them. -/
theorem split_getElem {i : Nat} (hi : i < tokens.length) :
    tokens = tokens.take i ++ tokens[i] :: tokens.drop (i + 1) := by
  rw [← List.drop_eq_getElem_cons hi, List.take_append_drop]

theorem spelling_take_succ {i : Nat} (hi : i < tokens.length) :
    spelling ((tokens.take (i + 1)).map piece) =
      spelling ((tokens.take i).map piece) ++ tokens[i].lexeme.toList := by
  rw [List.take_succ_eq_append_getElem hi, List.map_append, spelling_append]
  simp [piece]

/-- A token is at the place after the text of the tokens before it. -/
theorem isAt_getElem (h : Placed place tokens) {i : Nat} (hi : i < tokens.length) :
    tokens[i].IsAt (place.after (spelling ((tokens.take i).map piece))) := by
  rw [split_getElem hi, placed_append] at h
  exact h.2.1

theorem offset_getElem (h : Placed .start tokens) {i : Nat} (hi : i < tokens.length) :
    tokens[i].offset = Text.byteLength (spelling ((tokens.take i).map piece)) := by
  unfold Token.offset
  rw [(isAt_getElem h hi).span, Position.offset_start_after]

theorem endOffset_getElem (h : Placed .start tokens) {i : Nat} (hi : i < tokens.length) :
    tokens[i].endOffset = Text.byteLength (spelling ((tokens.take (i + 1)).map piece)) := by
  unfold Token.endOffset
  rw [offset_getElem h hi, spelling_take_succ hi, Text.byteLength_append]

/-- A token ends no later than a later one starts. -/
theorem endOffset_le_offset (h : Placed .start tokens) {i j : Nat} (hij : i < j)
    (hj : j < tokens.length) : tokens[i].endOffset ≤ tokens[j].offset := by
  have hsplit : tokens.take j = tokens.take (i + 1) ++ (tokens.take j).drop (i + 1) := by
    conv_lhs => rw [← List.take_append_drop (i + 1) (tokens.take j)]
    rw [List.take_take, Nat.min_eq_left hij]
  rw [endOffset_getElem h (hij.trans hj), offset_getElem h hj, hsplit, List.map_append,
    spelling_append, Text.byteLength_append]
  exact Nat.le_add_right _ _

/-- Every character of the spelled text is in a token. -/
theorem exists_getElem_of_spelling {before behind : List Char} {c : Char}
    (h : spelling (tokens.map piece) = before ++ c :: behind) :
    ∃ i, ∃ hi : i < tokens.length, ∃ first last, tokens[i].lexeme.toList = first ++ c :: last ∧
      before = spelling ((tokens.take i).map piece) ++ first := by
  induction tokens generalizing before with
  | nil => simp at h
  | cons t tokens ih =>
    rw [List.map_cons, spelling_cons, List.append_eq_append_iff] at h
    rcases h with ⟨middle, rfl, hrest⟩ | ⟨middle, hlexeme, hrest⟩
    · obtain ⟨i, hi, first, last, hl, rfl⟩ := ih hrest
      refine ⟨i + 1, Nat.succ_lt_succ hi, first, last, hl, ?_⟩
      rw [List.take_succ_cons, List.map_cons, spelling_cons, List.append_assoc]
    · cases middle with
      | nil =>
        have hnext : spelling (tokens.map piece) = [] ++ c :: behind := hrest.symm
        obtain ⟨i, hi, first, last, hl, hb⟩ := ih hnext
        refine ⟨i + 1, Nat.succ_lt_succ hi, first, last, hl, ?_⟩
        rw [List.take_succ_cons, List.map_cons, spelling_cons, List.append_assoc, ← hb, hlexeme,
          List.append_nil, List.append_nil]
      | cons d middle =>
        obtain ⟨rfl, -⟩ := List.cons.inj hrest
        exact ⟨0, Nat.succ_pos _, before, middle, hlexeme, rfl⟩

end Token

/-! ## The tiling -/

open Token

/-- **Tokens tile a source**: their lexemes are the source, cut at character boundaries into pieces
that are not empty, and the offsets of each token are the ends of its piece. -/
structure Tiles (source : String) (tokens : List Token) : Prop where
  /-- The lexemes, joined, are the source. -/
  join_lexemes : String.join (tokens.map Token.lexeme) = source
  lexeme_ne_empty : ∀ t ∈ tokens, t.lexeme ≠ ""
  eq_nil_iff : tokens = [] ↔ source = ""
  first_offset : ∀ t, tokens.head? = some t → t.offset = 0
  next_offset : ∀ i (hi : i + 1 < tokens.length), tokens[i + 1].offset = tokens[i].endOffset
  last_endOffset : ∀ t, tokens.getLast? = some t → t.endOffset = source.utf8ByteSize
  isCut : ∀ t ∈ tokens,
    Text.IsCut source.toList t.offset ∧ Text.IsCut source.toList t.endOffset
  /-- A token's bytes of the source are its lexeme. -/
  slice : ∀ t ∈ tokens, Text.slice? source.toList t.offset t.endOffset = some t.lexeme.toList
  /-- Each character of the source lies in one token. -/
  covers : ∀ before c behind, source.toList = before ++ c :: behind →
    ∃! i : Fin tokens.length, tokens[i].offset ≤ Text.byteLength before ∧
      Text.byteLength before + c.utf8Size ≤ tokens[i].endOffset

variable {source : String} {tokens : List Token}

/-- The source, cut where its tokens are cut. -/
theorem toList_eq_of_split (h : scan source = .ok tokens) {before run behind : List Token}
    (hs : tokens = before ++ (run ++ behind)) :
    source.toList = spelling (before.map piece) ++ spelling (run.map piece) ++
      spelling (behind.map piece) := by
  rw [(munch_of_scan h).eq_spelling, hs, List.map_append, List.map_append, spelling_append,
    spelling_append, List.append_assoc]

/-- The source around the token of an index. -/
theorem toList_eq_of_scan (h : scan source = .ok tokens) {i : Nat} (hi : i < tokens.length) :
    source.toList = spelling ((tokens.take i).map piece) ++ tokens[i].lexeme.toList ++
      spelling ((tokens.drop (i + 1)).map piece) := by
  have hsplit : source.toList = spelling ((tokens.take i).map piece) ++
      spelling ([tokens[i]].map piece) ++ spelling ((tokens.drop (i + 1)).map piece) :=
    toList_eq_of_split h (split_getElem hi)
  rw [List.map_singleton, spelling_cons, spelling_nil, List.append_nil] at hsplit
  exact hsplit

theorem isCut_of_scan (h : scan source = .ok tokens) {i : Nat} (hi : i < tokens.length) :
    Text.IsCut source.toList tokens[i].offset ∧ Text.IsCut source.toList tokens[i].endOffset := by
  obtain ⟨-, -, hp⟩ := scan_eq_ok_iff.mp h
  have hsource := toList_eq_of_scan h hi
  have hnext : source.toList = spelling ((tokens.take (i + 1)).map piece) ++
      spelling ((tokens.drop (i + 1)).map piece) := by
    rw [spelling_take_succ hi]
    exact hsource
  exact ⟨⟨_, _, hsource.trans (List.append_assoc _ _ _), (offset_getElem hp hi).symm⟩,
    ⟨_, _, hnext, (endOffset_getElem hp hi).symm⟩⟩

/-- The bytes of the source that a token covers are its lexeme. -/
theorem slice?_of_scan (h : scan source = .ok tokens) {i : Nat} (hi : i < tokens.length) :
    Text.slice? source.toList tokens[i].offset tokens[i].endOffset =
      some tokens[i].lexeme.toList := by
  obtain ⟨-, -, hp⟩ := scan_eq_ok_iff.mp h
  rw [toList_eq_of_scan h hi, offset_getElem hp hi, endOffset_getElem hp hi,
    spelling_take_succ hi]
  exact Text.slice?_append _ _ _

/-- The last token ends where the source does. -/
theorem endOffset_of_getLast? (h : scan source = .ok tokens) {t : Token}
    (ht : tokens.getLast? = some t) : t.endOffset = source.utf8ByteSize := by
  obtain ⟨-, hm, hp⟩ := scan_eq_ok_iff.mp h
  obtain ⟨rest, rfl⟩ := List.getLast?_eq_some_iff.mp ht
  have hlast : rest.length < (rest ++ [t]).length := by simp
  have hend := endOffset_getElem hp hlast
  rw [List.getElem_concat_length rfl, List.take_of_length_le (by simp)] at hend
  rw [hend, Text.utf8ByteSize_eq_byteLength, hm.eq_spelling]

/-- Each character of the source lies in one token: in one by what the tokens spell, in no second
one as no two overlap. -/
theorem existsUnique_covering (h : scan source = .ok tokens) {before behind : List Char} {c : Char}
    (hc : source.toList = before ++ c :: behind) :
    ∃! i : Fin tokens.length, tokens[i].offset ≤ Text.byteLength before ∧
      Text.byteLength before + c.utf8Size ≤ tokens[i].endOffset := by
  obtain ⟨-, hm, hp⟩ := scan_eq_ok_iff.mp h
  have hspell : spelling (tokens.map piece) = before ++ c :: behind := hm.eq_spelling.symm.trans hc
  obtain ⟨i, hi, first, last, hl, rfl⟩ := exists_getElem_of_spelling hspell
  have hsize := c.utf8Size_pos
  have hstart := offset_getElem hp hi
  have hend := endOffset_getElem hp hi
  rw [spelling_take_succ hi, hl] at hend
  simp only [Text.byteLength_append, Text.byteLength_cons] at hend ⊢
  refine ⟨⟨i, hi⟩, ?_, ?_⟩
  · simp only [Fin.getElem_fin]
    omega
  · rintro ⟨j, hj⟩ ⟨hle, hge⟩
    simp only [Fin.getElem_fin] at hle hge
    rcases Nat.lt_trichotomy j i with hlt | rfl | hlt
    · have := endOffset_le_offset hp hlt hi
      omega
    · rfl
    · have := endOffset_le_offset hp hlt hj
      omega

/-- **The tokens of a scan tile its source.** -/
theorem scan_tiles (h : scan source = .ok tokens) : Tiles source tokens := by
  obtain ⟨-, hm, hp⟩ := scan_eq_ok_iff.mp h
  have hjoin : String.join (tokens.map Token.lexeme) = source := by
    have hspell : source.toList = spelling (tokens.map piece) := hm.eq_spelling
    rw [spelling_map_piece] at hspell
    exact (String.toList_inj.mp hspell).symm
  refine ⟨hjoin, fun t ht he => ?_, ⟨?_, ?_⟩, fun t ht => ?_, fun i hi => ?_,
    fun t ht => endOffset_of_getLast? h ht, fun t ht => ?_, fun t ht => ?_,
    fun before c behind hc => existsUnique_covering h hc⟩
  · exact hm.ne_nil_of_mem t.piece (List.mem_map_of_mem ht) (congrArg String.toList he)
  · rintro rfl
    exact hjoin.symm
  · rintro rfl
    exact List.map_eq_nil_iff.mp (Munch.done.unique hm).symm
  · obtain ⟨rest, rfl⟩ := List.head?_eq_some_iff.mp ht
    exact offset_getElem hp (Nat.succ_pos rest.length)
  · rw [offset_getElem hp hi, endOffset_getElem hp (Nat.lt_of_succ_lt hi)]
  · obtain ⟨i, hi, rfl⟩ := List.getElem_of_mem ht
    exact isCut_of_scan h hi
  · obtain ⟨i, hi, rfl⟩ := List.getElem_of_mem ht
    exact slice?_of_scan h hi

/-- A string of a two-byte character and a line feed, a carriage return and a comment. -/
theorem scan_tiles_lines : ∃ tokens, scan "\"é\n\"\r// λ" = .ok tokens ∧
    Tiles "\"é\n\"\r// λ" tokens ∧
    tokens.map (fun t => (t.offset, t.endOffset)) = [(0, 5), (5, 6), (6, 11)] := by
  have hs : (scan "\"é\n\"\r// λ").map (List.map fun t => (t.offset, t.endOffset)) =
      .ok [(0, 5), (5, 6), (6, 11)] := by
    decide +kernel
  obtain ⟨tokens, h, ho⟩ := exists_of_map_eq_ok hs
  exact ⟨tokens, h, scan_tiles h, ho⟩

end LoxTokenizer
