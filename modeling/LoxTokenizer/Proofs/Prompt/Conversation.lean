import LoxTokenizer.Proofs.Output.Writes

/-!
# What a run at the prompt says

The prompt answers each line by what it holds and by the settings, and by nothing else: the line
is scanned from its start, as if no line had come before it. Here a run is told by its lines. As
long as the handle has room and no flush fails, what it has taken after some lines is their
answers, each behind a prompt, and what comes next does not depend on them in any other way.

* `answer`, `complaint`: what a line adds to the output and to the error output.
* `spoken`, `complaints`: what some lines add, one after the other.
* `cutAfter_iff`: the lines are the input, cut after each line feed.
* `runLines_cons`, **`runLines_append`**: a line that is answered, and some lines that are.
* `runLines_nil`, `runLines_of_unreadable`: the end of the input, and a line that is no text.
* **`run_answers_lines`**: a whole run, with a handle that never fails.
-/

namespace LoxTokenizer.Prompt

/-! ## The lines of an input -/

theorem cutAfter_consLine {b : UInt8} {input : List UInt8} {lines : List (List UInt8)}
    (hb : b ≠ lineFeed) (h : CutAfter lineFeed input lines) :
    CutAfter lineFeed (b :: input) (consLine b lines) := by
  cases h with
  | nil => exact .last (List.cons_ne_nil b []) (by simpa using hb.symm)
  | last _ h => exact .last (List.cons_ne_nil _ _) (List.not_mem_cons_of_ne_of_not_mem hb.symm h)
  | cons h ht => exact .cons (List.not_mem_cons_of_ne_of_not_mem hb.symm h) ht

theorem cutAfter_lines (input : List UInt8) : CutAfter lineFeed input (lines input) := by
  induction input with
  | nil => exact .nil
  | cons b rest ih =>
    unfold lines
    by_cases hb : b = lineFeed
    · rw [if_pos hb, hb]
      exact .cons List.not_mem_nil ih
    · rw [if_neg hb]
      exact cutAfter_consLine hb ih

/-- **The prompt reads its input line by line.** -/
theorem cutAfter_iff {input : List UInt8} {cut : List (List UInt8)} :
    CutAfter lineFeed input cut ↔ cut = lines input := by
  constructor
  · exact fun h => h.unique (cutAfter_lines input)
  · rintro rfl
    exact cutAfter_lines input

/-! ## One line -/

/-- The source in a line, if the line is a text: the line without its ending. -/
def source? (line : List UInt8) : Option String :=
  (decodeUtf8? line).map trimEnd

/-- A line that is a text. -/
def IsText (line : List UInt8) : Prop :=
  (source? line).isSome = true

instance : DecidablePred IsText := fun line =>
  inferInstanceAs (Decidable ((source? line).isSome = true))

/-- The lines up to the first that is no text. -/
theorem exists_texts (lines : List (List UInt8)) :
    ∃ texts more, lines = texts ++ more ∧ (∀ line ∈ texts, IsText line) ∧
      ∀ bad ∈ more.head?, ¬ IsText bad := by
  induction lines with
  | nil => exact ⟨[], [], rfl, by simp, by simp⟩
  | cons line lines ih =>
    by_cases htext : IsText line
    · obtain ⟨texts, more, rfl, htexts, hbad⟩ := ih
      exact ⟨line :: texts, more, rfl, List.forall_mem_cons.mpr ⟨htext, htexts⟩, hbad⟩
    · refine ⟨[], line :: lines, rfl, by simp, fun bad hbad => ?_⟩
      cases hbad
      exact htext

/-- What a line adds to the output: the listing of its tokens, or nothing if it has an error. -/
def answer (settings : Settings) (line : List UInt8) : List UInt8 :=
  match (source? line).map settings.scan with
  | some (.ok tokens) =>
    utf8 (Listing.render settings.format (Listing.shown settings.trivia tokens))
  | _ => []

/-- What a line adds to the error output: the report of its error over the line alone, or nothing
if it has none. -/
def complaint (settings : Settings) (line : List UInt8) : String :=
  match source? line with
  | none => ""
  | some source =>
    match settings.scan source with
    | .ok _ => ""
    | .error e => e.report inputName source

/-- What some lines add to the output, each behind a prompt. -/
def spoken (settings : Settings) (lines : List (List UInt8)) : List UInt8 :=
  lines.flatMap fun line => utf8 settings.prompt ++ answer settings line

/-- What some lines add to the error output. -/
def complaints (settings : Settings) (lines : List (List UInt8)) : String :=
  String.join (lines.map (complaint settings))

variable {settings : Settings} {line : List UInt8} {rest heard : List (List UInt8)} {s : Sink}
  {errors : String} {consumed n : Nat}

@[simp] theorem spoken_nil : spoken settings [] = [] := rfl

@[simp] theorem spoken_cons : spoken settings (line :: rest) =
    utf8 settings.prompt ++ answer settings line ++ spoken settings rest := rfl

@[simp] theorem spoken_append (settings : Settings) (heard rest : List (List UInt8)) :
    spoken settings (heard ++ rest) = spoken settings heard ++ spoken settings rest := by
  simp [spoken]

@[simp] theorem complaints_nil : complaints settings [] = "" := rfl

@[simp] theorem complaints_cons : complaints settings (line :: rest) =
    complaint settings line ++ complaints settings rest := by
  simp [complaints]

@[simp] theorem complaints_append : complaints settings (heard ++ rest) =
    complaints settings heard ++ complaints settings rest := by
  simp [complaints]

theorem reply_of_unreadable (h : ¬ IsText line) : reply settings line = .unreadable := by
  have hnone : decodeUtf8? line = none := by
    simpa [IsText, source?] using h
  simp [reply, hnone]

/-- **A line that is a text** is answered with a listing, or with a report. -/
theorem reply_of_isText (settings : Settings) (h : IsText line) :
    (∃ pieces, reply settings line = .listing pieces ∧
      utf8 (String.join pieces) = answer settings line ∧ complaint settings line = "") ∨
    (reply settings line = .report (complaint settings line) ∧ answer settings line = []) := by
  obtain ⟨text, htext⟩ : ∃ text, decodeUtf8? line = some text := by
    simpa [IsText, source?, Option.isSome_iff_exists] using h
  have hsource : source? line = some (trimEnd text) := by
    simp [source?, htext]
  cases hs : settings.scan (trimEnd text) with
  | ok tokens =>
    refine Or.inl ⟨settings.listing tokens, ?_, ?_, ?_⟩
    · simp [reply, htext, hs]
    · simp only [answer, hsource, Option.map_some, hs]
      rfl
    · simp [complaint, hsource, hs]
  | error e =>
    refine Or.inr ⟨?_, ?_⟩
    · simp [reply, complaint, hsource, htext, hs]
    · simp [answer, hsource, hs]

/-! ## One turn of the prompt -/

/-- **The prompt is written and flushed** where there is room and the flush does not fail. -/
theorem ask_of_hasRoom (hroom : s.HasRoom (utf8 settings.prompt))
    (hflush : s.badFlush ≠ some (s.flushes + 1)) :
    ask settings s = .ok (s.grown (utf8 settings.prompt) 1) := by
  have hwritten : (s.grown (utf8 settings.prompt) 0).flush =
      .ok ((s.grown (utf8 settings.prompt) 0).grown [] 1) := Sink.flush_of_ne hflush
  unfold ask
  rw [Sink.write_of_hasRoom hroom]
  show (s.grown (utf8 settings.prompt) 0).flush = _
  rw [hwritten, Sink.grown_grown, List.append_nil, Nat.zero_add]

theorem runLines_of_ask_error {full : Sink} {lines : List (List UInt8)}
    (h : ask settings s = .error full) : runLines settings s errors consumed lines =
      ⟨⟨.ioFailure, full.bytes, errors ++ promptFailure⟩, consumed⟩ := by
  cases lines with
  | nil =>
    unfold runLines
    rw [h]
    rfl
  | cons line rest =>
    unfold runLines
    rw [h]

/-- **A line that is answered** leaves its answer and its complaint, and the run goes on as if it
had started behind them. -/
theorem runLines_cons (htext : IsText line)
    (hroom : s.HasRoom (utf8 settings.prompt ++ answer settings line))
    (hflush : s.badFlush ≠ some (s.flushes + 1)) :
    runLines settings s errors consumed (line :: rest) =
      runLines settings (s.grown (utf8 settings.prompt ++ answer settings line) 1)
        (errors ++ complaint settings line) (consumed + line.length) rest := by
  have hask := ask_of_hasRoom (hroom.of_prefix (List.prefix_append _ _)) hflush
  conv => lhs; unfold runLines
  rw [hask]
  dsimp only
  rcases reply_of_isText settings htext with
    ⟨pieces, hreply, hanswer, hcomplaint⟩ | ⟨hreply, hanswer⟩
  · have hrest : (s.grown (utf8 settings.prompt) 1).HasRoom (utf8 (String.join pieces)) := by
      rw [Sink.hasRoom_grown_iff, hanswer]
      exact hroom
    rw [hreply]
    dsimp only
    rw [Sink.writeAll_eq_write, Sink.write_of_hasRoom hrest, hanswer, hcomplaint, Sink.grown_grown]
    simp
  · rw [hreply, hanswer, List.append_nil]

/-- The end of the input. -/
theorem runLines_nil (hroom : s.HasRoom (utf8 settings.prompt ++ [lineFeed]))
    (hflush : s.badFlush ≠ some (s.flushes + 1)) :
    runLines settings s errors consumed [] =
      ⟨⟨.success, s.bytes ++ utf8 settings.prompt ++ [lineFeed], errors⟩, consumed⟩ := by
  have hrest : (s.grown (utf8 settings.prompt) 1).HasRoom (utf8 "\n") := by
    rw [Sink.hasRoom_grown_iff, utf8_newline]
    exact hroom
  have hlast : ((ask settings s).bind fun output => output.write "\n") =
      .ok ((s.grown (utf8 settings.prompt) 1).grown (utf8 "\n") 0) := by
    rw [ask_of_hasRoom (hroom.of_prefix (List.prefix_append _ _)) hflush]
    exact Sink.write_of_hasRoom hrest
  unfold runLines
  rw [hlast]
  simp [utf8_newline]

/-- A line that is no text ends the run. It has been read. -/
theorem runLines_of_unreadable (htext : ¬ IsText line)
    (hroom : s.HasRoom (utf8 settings.prompt)) (hflush : s.badFlush ≠ some (s.flushes + 1)) :
    runLines settings s errors consumed (line :: rest) =
      ⟨⟨.ioFailure, s.bytes ++ utf8 settings.prompt, errors ++ inputFailure⟩,
        consumed + line.length⟩ := by
  unfold runLines
  rw [ask_of_hasRoom hroom hflush, reply_of_unreadable htext]
  simp

/-! ## Some lines -/

/-- **Lines that are answered** leave their answers, each behind a prompt, and the run goes on as
if it had started behind them. -/
theorem runLines_append (htext : ∀ line ∈ heard, IsText line)
    (hroom : s.HasRoom (spoken settings heard))
    (hflush : ∀ j < heard.length, s.badFlush ≠ some (s.flushes + j + 1)) :
    runLines settings s errors consumed (heard ++ rest) =
      runLines settings (s.grown (spoken settings heard) heard.length)
        (errors ++ complaints settings heard) (consumed + heard.flatten.length) rest := by
  induction heard generalizing s errors consumed with
  | nil => simp [Sink.grown_nil]
  | cons line heard ih =>
    obtain ⟨hline, hothers⟩ := List.forall_mem_cons.mp htext
    have hfirst : s.HasRoom (utf8 settings.prompt ++ answer settings line) :=
      hroom.of_prefix (List.prefix_append _ (spoken settings heard))
    rw [List.cons_append, runLines_cons hline hfirst (hflush 0 (Nat.succ_pos _)), ih hothers]
    · rw [Sink.grown_grown, spoken_cons, complaints_cons, String.append_assoc, List.flatten_cons,
        List.length_append, Nat.add_assoc, List.length_cons, Nat.add_comm 1]
    · rw [Sink.hasRoom_grown_iff]
      exact hroom
    · intro j hj
      have hlater := hflush (j + 1) (Nat.succ_lt_succ hj)
      rwa [← Nat.add_assoc, Nat.add_right_comm s.flushes j 1] at hlater

/-! ## A whole run -/

/-- **A run over lines that are all texts**, with a handle that bears it. -/
theorem run_of_isText {input : List UInt8} (htext : ∀ line ∈ lines input, IsText line)
    (hroom : s.HasRoom (spoken settings (lines input) ++ (utf8 settings.prompt ++ [lineFeed])))
    (hflush : ∀ j ≤ (lines input).length, s.badFlush ≠ some (s.flushes + j + 1)) :
    run settings s input =
      ⟨⟨.success,
        s.bytes ++ (spoken settings (lines input) ++ (utf8 settings.prompt ++ [lineFeed])),
        complaints settings (lines input)⟩, input.length⟩ := by
  have hrun : runLines settings s "" 0 (lines input ++ []) = _ := runLines_append htext
    (hroom.of_prefix (List.prefix_append _ _)) fun j hj => hflush j (Nat.le_of_lt hj)
  rw [List.append_nil] at hrun
  unfold run
  rw [hrun, runLines_nil (Sink.hasRoom_grown_iff.mpr hroom) (hflush _ (Nat.le_refl _)),
    lines_flatten]
  simp

/-- **A run up to a line that is no text**, with a handle that bears it. -/
theorem run_of_unreadable {input bad : List UInt8} (hlines : lines input = heard ++ bad :: rest)
    (htext : ∀ line ∈ heard, IsText line) (hbad : ¬ IsText bad)
    (hroom : s.HasRoom (spoken settings heard ++ utf8 settings.prompt))
    (hflush : ∀ j ≤ heard.length, s.badFlush ≠ some (s.flushes + j + 1)) :
    run settings s input =
      ⟨⟨.ioFailure, s.bytes ++ (spoken settings heard ++ utf8 settings.prompt),
        complaints settings heard ++ inputFailure⟩, (heard ++ [bad]).flatten.length⟩ := by
  unfold run
  rw [hlines, runLines_append htext (hroom.of_prefix (List.prefix_append _ _))
      fun j hj => hflush j (Nat.le_of_lt hj),
    runLines_of_unreadable hbad (Sink.hasRoom_grown_iff.mpr hroom) (hflush _ (Nat.le_refl _))]
  simp

/-- **A run at the prompt, with a handle that never fails.** Where every line is a text, the output
is the answers of the lines, each behind a prompt, then one more prompt and a line feed; the error
output is the complaints; all of the input is read and the run is a success. A line that is no text
ends the run at that line: nothing is written behind its prompt, the complaints of the lines before
it are followed by the words for an input that cannot be read, and the input has been read up to
the end of that line. -/
theorem run_answers_lines {input : List UInt8} {lines : List (List UInt8)} (settings : Settings)
    (h : CutAfter lineFeed input lines) :
    ((∀ line ∈ lines, IsText line) → run settings .unlimited input =
      ⟨⟨.success, spoken settings lines ++ (utf8 settings.prompt ++ [lineFeed]),
        complaints settings lines⟩, input.length⟩) ∧
    ∀ heard bad rest, lines = heard ++ bad :: rest → (∀ line ∈ heard, IsText line) → ¬ IsText bad →
      run settings .unlimited input =
        ⟨⟨.ioFailure, spoken settings heard ++ utf8 settings.prompt,
          complaints settings heard ++ inputFailure⟩, (heard ++ [bad]).flatten.length⟩ := by
  have hflush : ∀ flush : Nat, Sink.unlimited.badFlush ≠ some flush := by
    intro flush hbad
    cases hbad
  obtain rfl := cutAfter_iff.mp h
  constructor
  · intro htext
    exact run_of_isText htext (Sink.hasRoom_of_unbounded rfl) fun j _ => hflush _
  · intro heard bad rest hlines htext hbad
    exact run_of_unreadable hlines htext hbad (Sink.hasRoom_of_unbounded rfl) fun j _ => hflush _

/-- A line with an error, a line with two carriage returns at its end and one without an end; and
the first two of them before a line of a byte that starts no character. -/
theorem run_answers_lines_error :
    ((run ⟨.text, true, false, "> ", false⟩ .unlimited (utf8 "@\n1\r\r\nx")).status.code = 0 ∧
      (run ⟨.text, true, false, "> ", false⟩ .unlimited (utf8 "@\n1\r\r\nx")).output =
        utf8 "> > NUMBER \"1\" 1.0\n> IDENTIFIER \"x\" \"x\"\n> \n") ∧
    (run ⟨.text, true, false, "> ", false⟩ .unlimited
      (utf8 "@\n1\r\r\n" ++ [0xFF, lineFeed, 0x78])).status.code = 74 ∧
    (run ⟨.text, true, false, "> ", false⟩ .unlimited
      (utf8 "@\n1\r\r\n" ++ [0xFF, lineFeed, 0x78])).output = utf8 "> > NUMBER \"1\" 1.0\n> " ∧
    (run ⟨.text, true, false, "> ", false⟩ .unlimited
      (utf8 "@\n1\r\r\n" ++ [0xFF, lineFeed, 0x78])).consumed = 8 := by
  constructor
  · have hlines : CutAfter lineFeed (utf8 "@\n1\r\r\nx") [utf8 "@\n", utf8 "1\r\r\n", utf8 "x"] :=
      cutAfter_iff.mpr (by decide +kernel)
    have htext : ∀ line ∈ [utf8 "@\n", utf8 "1\r\r\n", utf8 "x"], IsText line := by
      decide +kernel
    rw [(run_answers_lines _ hlines).1 htext]
    exact ⟨rfl, by decide +kernel⟩
  · have hlines : CutAfter lineFeed (utf8 "@\n1\r\r\n" ++ [0xFF, lineFeed, 0x78])
        [utf8 "@\n", utf8 "1\r\r\n", [0xFF, lineFeed], [0x78]] :=
      cutAfter_iff.mpr (by decide +kernel)
    have htext : ∀ line ∈ [utf8 "@\n", utf8 "1\r\r\n"], IsText line := by
      decide +kernel
    have hbad : ¬ IsText [0xFF, lineFeed] := by
      decide +kernel
    rw [(run_answers_lines _ hlines).2 [utf8 "@\n", utf8 "1\r\r\n"] [0xFF, lineFeed] [[0x78]] rfl
      htext hbad]
    exact ⟨rfl, by decide +kernel, by decide +kernel⟩

end LoxTokenizer.Prompt
