import LoxTokenizer.Proofs.Machine.Reading

/-!
# Within bounds, up to the size limit

Of a source within the size limit, no state of the machine holds a count that its next step could
take out of a word, and no step cuts where there is no cut. All of it comes from the reading that
each state is: the counts are counts of the text read, and the ends of a slice are ends of texts.

* `Machine.InBounds`: what a state within bounds is.
* **`Machine.Reading.inBounds`**: readings are within bounds.
* **`scan_within_bounds`**: so are all states of the scan of a source, marked or not; each turn of
  the loop takes a character; the scan ends; and a source over the limit is refused unread.
* `Machine.exists_last_newlines`: line feeds up to the limit take the line counter to the last
  number of a word, so the limit could not be higher.
-/

namespace LoxTokenizer

open Lexeme Token

/-! ## Slices -/

namespace Text

/-- A text has a part from byte `start` up to byte `stop`: the two are in order and within the
text, and characters begin or the text ends at both. -/
structure IsSlice (text : List Char) (start stop : Nat) : Prop where
  start_le : start ≤ stop
  stop_le : stop ≤ byteLength text
  isCut_start : IsCut text start
  isCut_stop : IsCut text stop

theorem isSlice_append (before middle behind : List Char) :
    IsSlice (before ++ middle ++ behind) (byteLength before) (byteLength (before ++ middle)) where
  start_le := by simp
  stop_le := by simp
  isCut_start := ⟨before, middle ++ behind, List.append_assoc _ _ _, rfl⟩
  isCut_stop := ⟨before ++ middle, behind, rfl, rfl⟩

theorem byteLength_replicate (n : Nat) (c : Char) :
    byteLength (List.replicate n c) = n * c.utf8Size := by
  induction n with
  | zero => simp
  | succ n ih => rw [List.replicate_succ, byteLength_cons, ih, Nat.succ_mul, Nat.add_comm]

end Text

/-- The inside of a string and the body of a comment are parts of the lexeme. -/
theorem Lexeme.Spells.isSlice_body {kind : TokenKind} {lexeme : List Char}
    (h : Spells kind lexeme) :
    (kind = .comment → Text.IsSlice lexeme 2 (Text.byteLength lexeme)) ∧
      (kind = .string → Text.IsSlice lexeme 1 (Text.byteLength lexeme - 1)) := by
  obtain ⟨literal, -, hdenotes⟩ := exists_denotes h
  cases hdenotes with
  | number _ => simp
  | string body =>
    refine ⟨by simp, fun _ => ?_⟩
    have hslice := Text.isSlice_append ['"'] body ['"']
    rwa [← Text.byteLength_quoted] at hslice
  | comment body =>
    refine ⟨fun _ => ?_, by simp⟩
    have hslice := Text.isSlice_append ['/', '/'] body []
    rwa [List.append_nil] at hslice
  | other hk => exact ⟨fun h => absurd h hk.2.2, fun h => absurd h hk.2.1⟩

/-- Placed tokens end within the text that they spell. -/
theorem Token.endOffset_le_of_placed {tokens : List Token} (h : Placed .start tokens) {t : Token}
    (ht : t ∈ tokens) : t.endOffset ≤ Text.byteLength (spelling (tokens.map piece)) := by
  obtain ⟨i, hi, rfl⟩ := List.getElem_of_mem ht
  rw [endOffset_getElem h hi, ← spelling_take_append_drop tokens (i + 1), Text.byteLength_append]
  exact Nat.le_add_right _ _

namespace Machine

/-! ## States within bounds -/

/-- **A state within bounds.** -/
structure InBounds (source : String) (m : Machine) : Prop where
  start_le : m.start.offset ≤ m.cursor.place.offset
  offset_le : m.cursor.place.offset ≤ Text.byteLength source.toList
  line_le : m.cursor.place.line ≤ m.cursor.place.offset + 1
  column_le : m.cursor.place.column ≤ m.cursor.place.offset + 1
  /-- The sums that count the next character fit in words. -/
  fits : ∀ c, m.cursor.peek? = some c → m.cursor.place.Fits c
  /-- So the cursor counts in words what it would count without a bound. -/
  skip_eq : m.cursor.skip? = some m.cursor.skip
  /-- The sum of the offset and the length of a token found fits in a word, too. -/
  endOffset_lt : ∀ t ∈ m.tokens, t.offset + Text.byteLength t.lexeme.toList < wordLimit
  /-- The lexeme that is being read is a part of the source, and can be cut out. -/
  lexeme : Text.IsSlice source.toList m.start.offset m.cursor.place.offset ∧
    ∃ lexeme, m.lexeme? = some lexeme
  /-- At the end of a comment and of a string, so is the text that its value is made of. -/
  body : ∀ kind, m.stage = .complete kind → ∃ lexeme body,
    m.lexeme? = some lexeme ∧ body? kind lexeme = some body ∧
      (kind = .comment → Text.IsSlice lexeme 2 (Text.byteLength lexeme)) ∧
      (kind = .string → Text.IsSlice lexeme 1 (Text.byteLength lexeme - 1))
  no_panic : ∀ p, m.step ≠ .panic p

variable {source : String} {m : Machine} {lexeme : List Char}

/-- **Readings are within bounds.** -/
theorem Reading.inBounds (h : m.Reading source lexeme)
    (hle : Text.byteLength source.toList ≤ maxSourceLength) : m.InBounds source := by
  have hslice : Text.IsSlice source.toList m.start.offset m.cursor.place.offset := by
    rw [h.toList_eq, h.start_offset, h.place_offset]
    exact Text.isSlice_append _ _ _
  have hfits : ∀ c, m.cursor.peek? = some c → m.cursor.place.Fits c := fun c hc => h.fits hle hc
  refine ⟨hslice.start_le, hslice.stop_le, ?_, ?_, hfits, Cursor.skip?_eq hfits, fun t ht => ?_,
    ⟨hslice, lexeme, h.lexeme?_eq⟩, fun kind hk => ?_, fun p hp => ?_⟩
  · rw [h.place_eq]
    exact Position.line_start_after_le _
  · rw [h.place_eq]
    exact Position.column_start_after_le _
  · have hend : t.endOffset ≤ Text.byteLength m.before := endOffset_le_of_placed h.placed ht
    have hlimit : maxSourceLength < wordLimit := by decide
    rw [← h.start_offset] at hend
    exact Nat.lt_of_le_of_lt
      (hend.trans (hslice.start_le.trans (hslice.stop_le.trans hle))) hlimit
  · have hreads := h.reads
    rw [hk] at hreads
    cases hreads with
    | complete hs _ =>
      obtain ⟨body, -, hbody, -⟩ := exists_body hs
      exact ⟨lexeme, body, h.lexeme?_eq, hbody, hs.isSlice_body⟩
  · have hsound := h.sound hle
    rw [hp] at hsound
    exact hsound

/-- A scan without a panic ends in success or with an error. -/
theorem exists_end (hle : Text.byteLength source.toList ≤ maxSourceLength) :
    ∃ last, Reached source last ∧ (last.step = .done ∨ ∃ e, last.step = .failed e) := by
  obtain ⟨last, hreached, hlast⟩ := exists_last (Machine.of source)
  obtain ⟨lexeme, hreading⟩ := exists_reading hle hreached
  refine ⟨last, hreached, ?_⟩
  cases hstep : last.step with
  | next m' => exact absurd hstep (hlast m')
  | done => exact Or.inl rfl
  | failed e => exact Or.inr ⟨e, rfl⟩
  | panic p => exact absurd hstep ((hreading.inBounds hle).no_panic p)

/-- A source over the size limit is not read: its scan never leaves the first state. -/
theorem eq_of_reached_of_large (hlarge : maxSourceLength < Text.byteLength source.toList)
    (h : Reached source m) : m = Machine.of source := by
  rcases Relation.ReflTransGen.cases_head h with rfl | ⟨first, hstep, -⟩
  · rfl
  · unfold Steps at hstep
    rw [step_of_large hlarge] at hstep
    cases hstep

end Machine

/-! ## Every scan -/

open Machine

/-- **Within bounds, up to the size limit.** A scan of a source, marked or not, is a run of the
machine, which counts in words and cuts at byte offsets, and it ends without a panic.

* Of a source within the limit, every state that is reached is within bounds, each turn of the loop
  takes a character, some state that is reached is the last, and the end of every token that is
  returned fits in a word.
* A source over the limit is refused with its length, with no character read and no token made. -/
theorem scan_within_bounds (source : String) :
    Machine.result source = .ok (scan source) ∧
    Machine.resultWithEof source = .ok (scanWithEof source) ∧
    (Text.byteLength source.toList ≤ maxSourceLength →
      (∀ m, Reached source m → m.InBounds source) ∧
      (∀ m m', Reached source m → Turn m m' →
        m.cursor.place.offset < m'.cursor.place.offset) ∧
      (∃ last, Reached source last ∧ (last.step = .done ∨ ∃ e, last.step = .failed e)) ∧
      ∀ tokens, scan source = .ok tokens ∨ scanWithEof source = .ok tokens →
        ∀ t ∈ tokens, t.offset + Text.byteLength t.lexeme.toList < wordLimit) ∧
    (maxSourceLength < Text.byteLength source.toList →
      scan source = .error (.sourceTooLarge (Text.byteLength source.toList)) ∧
      scanWithEof source = .error (.sourceTooLarge (Text.byteLength source.toList)) ∧
      ∀ m, Reached source m → m.cursor = Cursor.of source.toList ∧ m.tokens = []) := by
  refine ⟨result_eq source, resultWithEof_eq source, fun hle => ⟨?_, ?_, exists_end hle, ?_⟩,
    fun hlarge => ⟨scan_of_large hlarge, ?_, ?_⟩⟩
  · intro m hm
    obtain ⟨lexeme, hreading⟩ := exists_reading hle hm
    exact hreading.inBounds hle
  · intro m m' _ hturn
    exact offset_lt_of_turn hturn
  · intro tokens htokens t ht
    have hplaced : Placed .start tokens ∧ spelling (tokens.map piece) = source.toList := by
      rcases htokens with h | h
      · obtain ⟨-, hm, hp⟩ := scan_eq_ok_iff.mp h
        exact ⟨hp, hm.eq_spelling.symm⟩
      · exact placed_of_scanWithEof h
    have hend := endOffset_le_of_placed hplaced.1 ht
    have hlimit : maxSourceLength < wordLimit := by decide
    rw [hplaced.2] at hend
    exact Nat.lt_of_le_of_lt (hend.trans hle) hlimit
  · exact scanWithEof_eq_error_iff.mpr (scan_of_large hlarge)
  · intro m hm
    rw [eq_of_reached_of_large hlarge hm]
    exact ⟨rfl, rfl⟩

/-! ## The limit is tight -/

/-- So many line feeds. -/
def newlines (n : Nat) : String :=
  String.ofList (List.replicate n '\n')

theorem byteLength_newlines (n : Nat) : Text.byteLength (newlines n).toList = n := by
  unfold newlines
  rw [String.toList_ofList, Text.byteLength_replicate]
  exact Nat.mul_one n

/-- A line feed is no fault. -/
theorem scan_newlines_ne_error {n : Nat} (hn : n ≤ maxSourceLength) (e : ScanError) :
    scan (newlines n) ≠ .error e := by
  intro he
  have hle : Text.byteLength (newlines n).toList ≤ maxSourceLength := by
    rwa [byteLength_newlines]
  obtain ⟨before, c, rest, -, hsource, -, -, hfault⟩ := (scan_eq_error_iff_faultAt hle).mp he
  have hc : c = '\n' := by
    have hmem : c ∈ (newlines n).toList := by simp [hsource]
    unfold newlines at hmem
    rw [String.toList_ofList] at hmem
    exact List.eq_of_mem_replicate hmem
  cases hfault with
  | unterminatedString _ => cases hc
  | unexpectedCharacter hnone =>
    subst hc
    exact not_startsNone_of_punctuation rfl hnone

/-- **The line counter reaches** one more than the line feeds of the source. -/
theorem Machine.exists_last_newlines {n : Nat} (hn : n ≤ maxSourceLength) :
    ∃ last, Reached (newlines n) last ∧ last.step = .done ∧ last.cursor.place.line = n + 1 := by
  have hle : Text.byteLength (newlines n).toList ≤ maxSourceLength := by
    rwa [byteLength_newlines]
  obtain ⟨last, hreached, hend⟩ := exists_end hle
  obtain ⟨lexeme, hreading⟩ := exists_reading hle hreached
  have hsound := hreading.sound hle
  rcases hend with hdone | ⟨e, hfailed⟩
  · rw [hdone] at hsound
    refine ⟨last, hreached, hdone, ?_⟩
    rw [hsound.2.2, Position.start_after]
    show 1 + (newlines n).toList.count '\n' = n + 1
    unfold newlines
    rw [String.toList_ofList, List.count_replicate_self, Nat.add_comm]
  · rw [hfailed] at hsound
    exact absurd hsound (scan_newlines_ne_error hn e)

/-- As many line feeds as the limit allows take the line counter to the last number of a word, with
every state within bounds. One more is refused. -/
theorem scan_within_bounds_newlines :
    (∃ last, Reached (newlines maxSourceLength) last ∧
      last.InBounds (newlines maxSourceLength) ∧ last.cursor.place.line + 1 = wordLimit) ∧
      scan (newlines (maxSourceLength + 1)) = .error (.sourceTooLarge (maxSourceLength + 1)) := by
  constructor
  · obtain ⟨-, -, hwithin, -⟩ := scan_within_bounds (newlines maxSourceLength)
    obtain ⟨last, hreached, -, hline⟩ := exists_last_newlines (Nat.le_refl maxSourceLength)
    have hle : Text.byteLength (newlines maxSourceLength).toList ≤ maxSourceLength := by
      rw [byteLength_newlines]
    refine ⟨last, hreached, (hwithin hle).1 last hreached, ?_⟩
    rw [hline]
    decide
  · obtain ⟨-, -, -, hlarge⟩ := scan_within_bounds (newlines (maxSourceLength + 1))
    rw [byteLength_newlines] at hlarge
    exact (hlarge (Nat.lt_succ_self maxSourceLength)).1

end LoxTokenizer
