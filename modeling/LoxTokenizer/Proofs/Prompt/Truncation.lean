import LoxTokenizer.Proofs.Prompt.Conversation

/-!
# A run at the prompt that is cut short

A handle that takes `n` bytes and no more cuts a run at the prompt short. The write that has no
room is one of three: a prompt, the answer to a line, or the line feed at the end. It is the last
thing that the run does, and with it the run is told by the lines that it has read: those whose
prompt was written in full, and no other. A flush that fails cuts a run short behind a prompt.

* `Truncates`: a run with such a handle, beside the same run with a handle that never fails.
* `exists_heard`: the lines that are answered before the handle gives out.
* `runLines_of_no_room`, `runLines_cons_of_no_room`, `runLines_nil_of_no_room`: the three writes.
* **`run_truncates`**: a handle that gives out only cuts a run short.
* **`run_of_badFlush`**: so does a flush that fails.
-/

namespace LoxTokenizer.Prompt

variable {settings : Settings} {line : List UInt8} {rest heard : List (List UInt8)} {s : Sink}
  {errors : String} {consumed n : Nat}

/-- How a run over `input` ends with a handle of `n` bytes, where it would write `full` and that has
no room. The lines that are `read` are those whose prompt was written in full, and not the one
behind them. If there was no room for the answer to the last of them then the words for the failure
are those of a listing, and else those of a prompt. -/
structure Stops (settings : Settings) (input : List UInt8) (n : Nat) (full : List UInt8)
    (cut : PromptOutcome) (read unread : List (List UInt8)) : Prop where
  split : lines input = read ++ unread
  outcome : cut = ⟨⟨.ioFailure, full.take n, complaints settings read ++
    if n < (spoken settings read).length then listingFailure else promptFailure⟩,
    read.flatten.length⟩
  within : spoken settings read ++ utf8 settings.prompt <+: full
  asked : ∀ before line after, read = before ++ line :: after →
    (spoken settings before ++ utf8 settings.prompt).length ≤ n
  unasked : unread ≠ [] → n < (spoken settings read ++ utf8 settings.prompt).length

/-- **A run at the prompt, cut short**: `cut` is what it leaves with a handle of `n` bytes, and
`full` with one that never fails. -/
structure Truncates (settings : Settings) (input : List UInt8) (n : Nat)
    (full cut : PromptOutcome) : Prop where
  output : cut.output = full.output.take n
  same : full.output.length ≤ n → cut = full
  stops : n < full.output.length →
    cut.status.code = 74 ∧ ∃ read unread, Stops settings input n full.output cut read unread

/-- **The lines that are answered** before a handle of `n` bytes gives out. -/
theorem exists_heard (settings : Settings) (n : Nat) (lines : List (List UInt8)) :
    ∃ heard rest, lines = heard ++ rest ∧ (spoken settings heard).length ≤ n ∧
      ∀ line ∈ rest.head?, n < (spoken settings (heard ++ [line])).length := by
  induction lines generalizing n with
  | nil => exact ⟨[], [], rfl, Nat.zero_le n, by simp⟩
  | cons line lines ih =>
    by_cases hle : (utf8 settings.prompt ++ answer settings line).length ≤ n
    · obtain ⟨heard, rest, hsplit, hroom, hnext⟩ :=
        ih (n - (utf8 settings.prompt ++ answer settings line).length)
      refine ⟨line :: heard, rest, congrArg (line :: ·) hsplit, ?_, fun next hn => ?_⟩
      · rw [spoken_cons, List.length_append]
        omega
      · have hlt := hnext next hn
        rw [List.cons_append, spoken_cons, List.length_append]
        omega
    · refine ⟨[], line :: lines, rfl, Nat.zero_le n, fun next hn => ?_⟩
      cases hn
      rw [List.nil_append, spoken_cons, spoken_nil, List.append_nil]
      exact Nat.lt_of_not_le hle

/-! ## A write that has no room -/

/-- A prompt that has no room. The line behind it, if there is one, is not read. -/
theorem runLines_of_no_room {lines : List (List UInt8)} (hc : s.capacity = some n)
    (hle : s.bytes.length ≤ n) (hfull : n < (s.bytes ++ utf8 settings.prompt).length) :
    runLines settings s errors consumed lines =
      ⟨⟨.ioFailure, (s.bytes ++ utf8 settings.prompt).take n, errors ++ promptFailure⟩,
        consumed⟩ := by
  obtain ⟨full, hwrite, hbytes⟩ := Sink.write_of_full hc hle hfull
  have hask : ask settings s = .error full := by
    unfold ask
    rw [hwrite]
    rfl
  rw [runLines_of_ask_error hask, hbytes]

/-- An answer that has no room. The line has been read, and no other is. -/
theorem runLines_cons_of_no_room (htext : IsText line) (hc : s.capacity = some n)
    (hroom : s.HasRoom (utf8 settings.prompt)) (hflush : s.badFlush ≠ some (s.flushes + 1))
    (hfull : n < (s.bytes ++ (utf8 settings.prompt ++ answer settings line)).length) :
    runLines settings s errors consumed (line :: rest) =
      ⟨⟨.ioFailure, (s.bytes ++ (utf8 settings.prompt ++ answer settings line)).take n,
        errors ++ complaint settings line ++ listingFailure⟩, consumed + line.length⟩ := by
  have hle := (Sink.hasRoom_iff_of_capacity hc).mp hroom
  rcases reply_of_isText settings htext with
    ⟨pieces, hreply, hanswer, hcomplaint⟩ | ⟨-, hanswer⟩
  · rw [← hanswer, ← List.append_assoc, ← Sink.bytes_grown s _ 1] at hfull
    rw [← Sink.bytes_grown s _ 1] at hle
    obtain ⟨full, hwrite, hbytes⟩ :=
      Sink.write_of_full (s := s.grown (utf8 settings.prompt) 1) hc hle hfull
    unfold runLines
    rw [ask_of_hasRoom hroom hflush, hreply]
    dsimp only
    rw [Sink.writeAll_eq_write, hwrite]
    dsimp only
    rw [hbytes, hcomplaint, hanswer, Sink.bytes_grown, List.append_assoc, String.append_empty]
  · rw [hanswer, List.append_nil] at hfull
    exact absurd hle (Nat.not_le.mpr hfull)

/-- The last line feed has no room. All lines have been read. -/
theorem runLines_nil_of_no_room (hc : s.capacity = some n)
    (hroom : s.HasRoom (utf8 settings.prompt)) (hflush : s.badFlush ≠ some (s.flushes + 1))
    (hfull : n < (s.bytes ++ (utf8 settings.prompt ++ [lineFeed])).length) :
    runLines settings s errors consumed [] =
      ⟨⟨.ioFailure, (s.bytes ++ (utf8 settings.prompt ++ [lineFeed])).take n,
        errors ++ promptFailure⟩, consumed⟩ := by
  have hle := (Sink.hasRoom_iff_of_capacity hc).mp hroom
  rw [← utf8_newline, ← List.append_assoc, ← Sink.bytes_grown s _ 1] at hfull
  rw [← Sink.bytes_grown s _ 1] at hle
  obtain ⟨full, hwrite, hbytes⟩ :=
    Sink.write_of_full (s := s.grown (utf8 settings.prompt) 1) hc hle hfull
  have hlast : ((ask settings s).bind fun output => output.write "\n") = .error full := by
    rw [ask_of_hasRoom hroom hflush]
    exact hwrite
  unfold runLines
  rw [hlast]
  dsimp only
  rw [hbytes, Sink.bytes_grown, utf8_newline, List.append_assoc]

/-! ## A handle that gives out -/

variable {input full : List UInt8}

/-- Behind some lines comes at least one more prompt. -/
theorem prompt_isPrefix (settings : Settings) (lines : List (List UInt8)) (tail : List UInt8) :
    utf8 settings.prompt <+: spoken settings lines ++ (utf8 settings.prompt ++ tail) := by
  cases lines with
  | nil => exact List.prefix_append _ _
  | cons line rest =>
    rw [spoken_cons, List.append_assoc, List.append_assoc]
    exact List.prefix_append _ _

/-- The prompt that a line was read behind is part of what was said up to that line. -/
theorem spoken_prompt_isPrefix (settings : Settings) (before : List (List UInt8))
    (line : List UInt8) (after : List (List UInt8)) :
    spoken settings before ++ utf8 settings.prompt <+:
      spoken settings (before ++ line :: after) := by
  rw [spoken_append, spoken_cons, List.append_assoc]
  exact (List.prefix_append_right_inj _).mpr (List.prefix_append _ _)

theorem length_le_of_append {bytes more : List UInt8} (h : (bytes ++ more).length ≤ n) :
    bytes.length ≤ n :=
  Nat.le_trans (List.prefix_append bytes more).length_le h

/-- The lines that have been answered all had their prompt. -/
theorem asked_of_spoken_le (hle : (spoken settings heard).length ≤ n)
    (before : List (List UInt8)) (line : List UInt8) (after : List (List UInt8))
    (hsplit : heard = before ++ line :: after) :
    (spoken settings before ++ utf8 settings.prompt).length ≤ n := by
  subst hsplit
  exact Nat.le_trans (spoken_prompt_isPrefix settings before line after).length_le hle

/-- A run up to the lines that are answered, and the handle as it is then. -/
theorem exists_run_eq_runLines (hlines : lines input = heard ++ rest)
    (htext : ∀ line ∈ heard, IsText line) (hroom : (spoken settings heard).length ≤ n) :
    ∃ s : Sink, s.bytes = spoken settings heard ∧ s.capacity = some n ∧ s.badFlush = none ∧
      run settings (.limited (some n) none) input =
        runLines settings s (complaints settings heard) heard.flatten.length rest := by
  refine ⟨_, Sink.bytes_grown (.limited (some n) none) (spoken settings heard) heard.length,
    rfl, rfl, ?_⟩
  unfold run
  rw [hlines, runLines_append htext ((Sink.hasRoom_iff_of_capacity rfl).mpr hroom)
    (by simp [Sink.limited]), String.empty_append, Nat.zero_add]

/-- The prompt behind the lines that are answered has no room. -/
theorem Stops.of_prompt (hlines : lines input = heard ++ rest) (htext : ∀ line ∈ heard, IsText line)
    (hroom : (spoken settings heard).length ≤ n)
    (hlt : n < (spoken settings heard ++ utf8 settings.prompt).length)
    (hwithin : spoken settings heard ++ utf8 settings.prompt <+: full) :
    Stops settings input n full (run settings (.limited (some n) none) input) heard rest where
  split := hlines
  outcome := by
    obtain ⟨tail, rfl⟩ := hwithin
    obtain ⟨s, hbytes, hc, -, hrun⟩ := exists_run_eq_runLines hlines htext hroom
    rw [← hbytes] at hroom hlt ⊢
    rw [hrun, runLines_of_no_room hc hroom hlt, if_neg (Nat.not_lt.mpr hroom),
      List.take_append_of_le_length (Nat.le_of_lt hlt)]
  within := hwithin
  asked := asked_of_spoken_le hroom
  unasked _ := hlt

/-- The answer to a line has no room. -/
theorem Stops.of_answer (hlines : lines input = heard ++ line :: rest)
    (htext : ∀ line ∈ heard, IsText line) (hline : IsText line)
    (hroom : (spoken settings heard ++ utf8 settings.prompt).length ≤ n)
    (hlt : n < (spoken settings (heard ++ [line])).length)
    (hwithin : spoken settings (heard ++ [line]) ++ utf8 settings.prompt <+: full) :
    Stops settings input n full (run settings (.limited (some n) none) input)
      (heard ++ [line]) rest where
  split := by
    rw [hlines]
    simp
  outcome := by
    obtain ⟨tail, rfl⟩ := (List.prefix_append _ _).trans hwithin
    obtain ⟨s, hbytes, hc, hb, hrun⟩ :=
      exists_run_eq_runLines hlines htext (length_le_of_append hroom)
    have hspoken : spoken settings (heard ++ [line]) =
        s.bytes ++ (utf8 settings.prompt ++ answer settings line) := by
      simp [hbytes]
    rw [← hbytes] at hroom
    rw [if_pos hlt, List.take_append_of_le_length (Nat.le_of_lt hlt)]
    rw [hspoken] at hlt ⊢
    rw [hrun, runLines_cons_of_no_room hline hc ((Sink.hasRoom_iff_of_capacity hc).mpr hroom)
      (by simp [hb]) hlt]
    simp
  within := hwithin
  asked before line' after hsplit := by
    -- The lines before a line that was read are some of those that were answered.
    have hle : before.length ≤ heard.length := by
      have := congrArg List.length hsplit
      simp only [List.length_append, List.length_cons, List.length_nil] at this
      omega
    obtain ⟨others, rfl⟩ := List.prefix_of_prefix_length_le
      (hsplit ▸ List.prefix_append before (line' :: after)) (List.prefix_append heard [line]) hle
    cases others with
    | nil => rwa [List.append_nil] at hroom
    | cons other others =>
      have hbefore := (spoken_prompt_isPrefix settings before other others).length_le
      exact Nat.le_trans hbefore (length_le_of_append hroom)
  unasked _ := by
    rw [List.length_append]
    exact Nat.lt_add_right _ hlt

/-- The line feed behind the last prompt has no room. -/
theorem Stops.of_end (hlines : lines input = heard) (htext : ∀ line ∈ heard, IsText line)
    (hroom : (spoken settings heard ++ utf8 settings.prompt).length ≤ n)
    (hlt : n < (spoken settings heard ++ (utf8 settings.prompt ++ [lineFeed])).length) :
    Stops settings input n (spoken settings heard ++ (utf8 settings.prompt ++ [lineFeed]))
      (run settings (.limited (some n) none) input) heard [] where
  split := hlines.trans (List.append_nil heard).symm
  outcome := by
    have hle := length_le_of_append hroom
    obtain ⟨s, hbytes, hc, hb, hrun⟩ := exists_run_eq_runLines
      (hlines.trans (List.append_nil heard).symm) htext hle
    rw [← hbytes] at hroom hle hlt ⊢
    rw [hrun, runLines_nil_of_no_room hc ((Sink.hasRoom_iff_of_capacity hc).mpr hroom)
      (by simp [hb]) hlt, if_neg (Nat.not_lt.mpr hle)]
  within := by
    rw [← List.append_assoc]
    exact List.prefix_append _ _
  asked := asked_of_spoken_le (length_le_of_append hroom)
  unasked h := absurd rfl h

/-! ## Any run -/

/-- **What a run writes where it has room.** The run is over the lines `texts`, and behind the last
prompt comes a line feed unless the next line is no text. -/
theorem exists_run_of_hasRoom (settings : Settings) (input : List UInt8) :
    ∃ texts more tail status errors consumed, lines input = texts ++ more ∧
      (∀ line ∈ texts, IsText line) ∧ (tail = [] ∨ tail = [lineFeed] ∧ more = []) ∧
      ∀ s : Sink, s.badFlush = none →
        s.HasRoom (spoken settings texts ++ (utf8 settings.prompt ++ tail)) →
        run settings s input = ⟨⟨status,
          s.bytes ++ (spoken settings texts ++ (utf8 settings.prompt ++ tail)), errors⟩,
          consumed⟩ := by
  obtain ⟨texts, more, hlines, htext, hbad⟩ := exists_texts (lines input)
  cases more with
  | nil =>
    rw [List.append_nil] at hlines
    subst hlines
    exact ⟨lines input, [], [lineFeed], .success, complaints settings (lines input), input.length,
      (List.append_nil _).symm, htext, Or.inr ⟨rfl, rfl⟩,
      fun s hb hroom => run_of_isText htext hroom (by simp [hb])⟩
  | cons bad rest =>
    refine ⟨texts, bad :: rest, [], .ioFailure, complaints settings texts ++ inputFailure,
      (texts ++ [bad]).flatten.length, hlines, htext, Or.inl rfl, fun s hb hroom => ?_⟩
    rw [List.append_nil] at hroom ⊢
    exact run_of_unreadable hlines htext (hbad bad rfl) hroom (by simp [hb])

/-- A run that has no room for all that it would write stops at one of the three writes. -/
theorem exists_stops {texts more : List (List UInt8)} {tail : List UInt8}
    (hlines : lines input = texts ++ more) (htext : ∀ line ∈ texts, IsText line)
    (htail : tail = [] ∨ tail = [lineFeed] ∧ more = [])
    (hlt : n < (spoken settings texts ++ (utf8 settings.prompt ++ tail)).length) :
    ∃ read unread, Stops settings input n (spoken settings texts ++ (utf8 settings.prompt ++ tail))
      (run settings (.limited (some n) none) input) read unread := by
  obtain ⟨heard, rest, rfl, hroom, hnext⟩ := exists_heard settings n texts
  have hheard : ∀ line ∈ heard, IsText line :=
    fun line hline => htext line (List.mem_append_left rest hline)
  by_cases hprompt : (spoken settings heard ++ utf8 settings.prompt).length ≤ n
  · cases rest with
    | cons line rest =>
      -- The prompt has room, and so it is the answer to `line` that has none.
      refine ⟨_, _, .of_answer (by simpa using hlines) hheard (htext line (by simp)) hprompt
        (hnext line rfl) ?_⟩
      rw [List.append_cons heard line rest, spoken_append settings (heard ++ [line]) rest,
        List.append_assoc]
      exact (List.prefix_append_right_inj _).mpr (prompt_isPrefix settings rest tail)
    | nil =>
      -- All lines are answered and the last prompt has room: the line feed is what is left.
      rw [List.append_nil] at hlines hlt ⊢
      rcases htail with rfl | ⟨rfl, rfl⟩
      · rw [List.append_nil] at hlt
        exact absurd hprompt (Nat.not_le.mpr hlt)
      · exact ⟨_, _, .of_end (by simpa using hlines) hheard hprompt hlt⟩
  · refine ⟨_, _, .of_prompt (by simpa using hlines) hheard hroom (Nat.lt_of_not_le hprompt) ?_⟩
    rw [spoken_append, List.append_assoc]
    exact (List.prefix_append_right_inj _).mpr (prompt_isPrefix settings rest tail)

/-- **A handle that gives out only cuts a run short.** -/
theorem run_truncates (settings : Settings) (n : Nat) (input : List UInt8) :
    Truncates settings input n (run settings .unlimited input)
      (run settings (.limited (some n) none) input) := by
  obtain ⟨texts, more, tail, status, errors, consumed, hlines, htext, htail, hrun⟩ :=
    exists_run_of_hasRoom settings input
  have hlimited := fun hle =>
    hrun (.limited (some n) none) rfl ((Sink.hasRoom_iff_of_capacity rfl).mpr hle)
  rw [hrun .unlimited rfl (Sink.hasRoom_of_unbounded rfl)]
  by_cases hle : (spoken settings texts ++ (utf8 settings.prompt ++ tail)).length ≤ n
  · rw [hlimited hle]
    exact ⟨(List.take_of_length_le hle).symm, fun _ => rfl,
      fun hlt => absurd hle (Nat.not_le.mpr hlt)⟩
  · obtain ⟨read, unread, hstops⟩ := exists_stops hlines htext htail (Nat.lt_of_not_le hle)
    refine ⟨?_, fun h => absurd h hle, fun _ => ⟨?_, read, unread, hstops⟩⟩
    · rw [hstops.outcome]
      rfl
    · rw [hstops.outcome]
      rfl

/-! ## A flush that fails -/

theorem ask_of_badFlush (settings : Settings) (hroom : s.HasRoom (utf8 settings.prompt))
    (hflush : s.badFlush = some (s.flushes + 1)) :
    ∃ full, ask settings s = .error full ∧ full.bytes = s.bytes ++ utf8 settings.prompt := by
  obtain ⟨full, hfull, hbytes⟩ := Sink.flush_of_eq (s := s.grown (utf8 settings.prompt) 0) hflush
  refine ⟨full, ?_, hbytes.trans (Sink.bytes_grown s _ 0)⟩
  unfold ask
  rw [Sink.write_of_hasRoom hroom]
  exact hfull

/-- The run gets as far as the flush of the prompt behind the lines `heard`: these are the first of
its lines, each of them is a text, and the handle has room for their answers and that prompt. -/
structure Reaches (settings : Settings) (capacity : Option Nat) (lines heard : List (List UInt8)) :
    Prop where
  first : heard <+: lines
  texts : ∀ line ∈ heard, IsText line
  room : ∀ m, capacity = some m → (spoken settings heard ++ utf8 settings.prompt).length ≤ m

/-- **A flush that fails** ends the run behind the prompt that was to be flushed. The lines before
that prompt have been read, and no other. -/
theorem run_of_badFlush {capacity : Option Nat}
    (h : Reaches settings capacity (lines input) heard) :
    run settings (.limited capacity (some (heard.length + 1))) input =
      ⟨⟨.ioFailure, spoken settings heard ++ utf8 settings.prompt,
        complaints settings heard ++ promptFailure⟩, heard.flatten.length⟩ := by
  have hall : (Sink.limited capacity (some (heard.length + 1))).HasRoom
      (spoken settings heard ++ utf8 settings.prompt) := h.room
  obtain ⟨rest, hlines⟩ := h.first
  obtain ⟨full, hask, hbytes⟩ := ask_of_badFlush settings
    (s := (Sink.limited capacity (some (heard.length + 1))).grown (spoken settings heard)
      heard.length) (Sink.hasRoom_grown_iff.mpr hall)
    (congrArg (some <| · + 1) (Nat.zero_add heard.length).symm)
  have hearlier : ∀ j < heard.length, (Sink.limited capacity (some (heard.length + 1))).badFlush ≠
      some ((Sink.limited capacity (some (heard.length + 1))).flushes + j + 1) := by
    intro j hj
    simp only [Sink.limited, ne_eq, Option.some.injEq]
    omega
  unfold run
  rw [← hlines, runLines_append h.texts (hall.of_prefix (List.prefix_append _ _)) hearlier,
    runLines_of_ask_error hask, hbytes, Sink.bytes_grown, String.empty_append, Nat.zero_add]
  simp [Sink.limited, Sink.bytes]

/-- The handle with the flush failing that is `k` flushes off. -/
def failing (s : Sink) (k : Nat) : Sink :=
  { s with badFlush := some (s.flushes + k + 1) }

theorem grown_failing (s : Sink) (k : Nat) (bytes : List UInt8) :
    (failing s (k + 1)).grown bytes 1 = failing (s.grown bytes 1) k := by
  have hoff : s.flushes + (k + 1) + 1 = s.flushes + 1 + k + 1 := by omega
  exact Sink.ext_bytes rfl rfl rfl (congrArg some hoff)

theorem badFlush_failing_ne (s : Sink) (k : Nat) :
    (failing s (k + 1)).badFlush ≠ some ((failing s (k + 1)).flushes + 1) := by
  simp [failing]

/-- Where some bytes have no room. -/
theorem exists_capacity_of_not_hasRoom {bytes : List UInt8} (hempty : s.HasRoom [])
    (hfull : ¬ s.HasRoom bytes) :
    ∃ n, s.capacity = some n ∧ s.bytes.length ≤ n ∧ n < (s.bytes ++ bytes).length := by
  cases hc : s.capacity with
  | none => exact absurd (Sink.hasRoom_of_unbounded hc) hfull
  | some n =>
    rw [Sink.hasRoom_iff_of_capacity hc, Nat.not_le] at hfull
    exact ⟨n, rfl, by simpa using hempty n hc, hfull⟩

/-- Nothing is flushed where the prompt has no room. -/
theorem runLines_failing_of_no_room {lines : List (List UInt8)} {k : Nat} (hempty : s.HasRoom [])
    (hprompt : ¬ s.HasRoom (utf8 settings.prompt)) :
    runLines settings (failing s k) errors consumed lines =
      runLines settings s errors consumed lines := by
  obtain ⟨n, hc, hle, hlt⟩ := exists_capacity_of_not_hasRoom hempty hprompt
  rw [runLines_of_no_room hc hle hlt]
  exact runLines_of_no_room hc hle hlt

/-- A flush that is more than one turn of the prompt off makes no difference to this turn. -/
theorem runLines_failing_succ {lines : List (List UInt8)} {k : Nat} (hs : s.badFlush = none)
    (hempty : s.HasRoom []) (hprompt : s.HasRoom (utf8 settings.prompt))
    (hlater : ∀ line rest, lines = line :: rest → IsText line →
      s.HasRoom (utf8 settings.prompt ++ answer settings line) → ∀ errors consumed,
      runLines settings (failing (s.grown (utf8 settings.prompt ++ answer settings line) 1) k)
          errors consumed rest =
        runLines settings (s.grown (utf8 settings.prompt ++ answer settings line) 1)
          errors consumed rest) :
    runLines settings (failing s (k + 1)) errors consumed lines =
      runLines settings s errors consumed lines := by
  have hflush : s.badFlush ≠ some (s.flushes + 1) := by simp [hs]
  have hfailing := badFlush_failing_ne s k
  cases lines with
  | nil =>
    by_cases hroom : s.HasRoom (utf8 settings.prompt ++ [lineFeed])
    · rw [runLines_nil hroom hflush]
      exact runLines_nil (s := failing s (k + 1)) hroom hfailing
    · obtain ⟨n, hc, -, hlt⟩ := exists_capacity_of_not_hasRoom hempty hroom
      rw [runLines_nil_of_no_room hc hprompt hflush hlt]
      exact runLines_nil_of_no_room (s := failing s (k + 1)) hc hprompt hfailing hlt
  | cons line rest =>
    by_cases htext : IsText line
    · by_cases hanswer : s.HasRoom (utf8 settings.prompt ++ answer settings line)
      · rw [runLines_cons htext hanswer hflush,
          runLines_cons (s := failing s (k + 1)) htext hanswer hfailing, grown_failing]
        exact hlater line rest rfl htext hanswer _ _
      · obtain ⟨n, hc, -, hlt⟩ := exists_capacity_of_not_hasRoom hempty hanswer
        rw [runLines_cons_of_no_room htext hc hprompt hflush hlt]
        exact runLines_cons_of_no_room (s := failing s (k + 1)) htext hc hprompt hfailing hlt
    · rw [runLines_of_unreadable htext hprompt hflush]
      exact runLines_of_unreadable (s := failing s (k + 1)) htext hprompt hfailing

/-- A flush that is not reached makes no difference to what is left of a run. -/
theorem runLines_failing {lines : List (List UInt8)} {k : Nat} (hs : s.badFlush = none)
    (hempty : s.HasRoom [])
    (h : ∀ heard, heard.length = k → heard <+: lines → (∀ line ∈ heard, IsText line) →
      ¬ s.HasRoom (spoken settings heard ++ utf8 settings.prompt)) :
    runLines settings (failing s k) errors consumed lines =
      runLines settings s errors consumed lines := by
  -- A turn of the prompt that is answered takes one flush and one line off.
  induction k generalizing s errors consumed lines with
  | zero =>
    exact runLines_failing_of_no_room hempty (h [] rfl List.nil_prefix (by simp))
  | succ k ih =>
    by_cases hprompt : s.HasRoom (utf8 settings.prompt)
    · refine runLines_failing_succ hs hempty hprompt fun line rest hlines htext hanswer _ _ => ?_
      refine ih hs ?_ fun heard hk hfirst htexts => ?_
      · rwa [Sink.hasRoom_grown_iff, List.append_nil]
      · rw [Sink.hasRoom_grown_iff, ← List.append_assoc, ← spoken_cons]
        refine h (line :: heard) (congrArg (· + 1) hk) ?_ (List.forall_mem_cons.mpr ⟨htext, htexts⟩)
        rw [hlines]
        exact List.cons_prefix_cons.mpr ⟨rfl, hfirst⟩
    · exact runLines_failing_of_no_room hempty hprompt

/-- **A flush that is not reached** makes no difference. -/
theorem run_of_not_reaches {capacity : Option Nat} {k : Nat}
    (h : ∀ heard, heard.length = k → ¬ Reaches settings capacity (lines input) heard) :
    run settings (.limited capacity (some (k + 1))) input =
      run settings (.limited capacity none) input := by
  have hfailing : Sink.limited capacity (some (k + 1)) = failing (.limited capacity none) k := by
    simp [failing, Sink.limited]
  unfold run
  rw [hfailing]
  refine runLines_failing rfl ?_ fun heard hk hfirst htexts hroom => h heard hk ⟨hfirst, htexts, ?_⟩
  · intro m _
    exact Nat.zero_le m
  · exact hroom

end LoxTokenizer.Prompt
