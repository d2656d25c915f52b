import LoxTokenizer.Proofs.Machine.Reading
import LoxTokenizer.Proofs.Scan.Records

/-!
# What the machine notes as it goes

The records of a scan are written while it runs: one when the source has been measured, one whenever
a token has been made, and one when the end of the source is met. Here the machine writes them step
by step, and what it writes is what `scanLog` tells of the whole scan.

* `Machine.notes`: what one step writes. `Machine.records`: what all steps from a state on write.
* `Machine.written`: what a state has behind it.
* **`Machine.written_append_notes`**: the step lemma. What is written after a step is what was
  written before it and the notes of the step.
* **`Machine.Reading.written_append_records`**: so a run from any state ends with the whole log.
* `Mirrors`: the records of a scan, told by its answer.
* **`log_mirrors_scan`**: the records that the machine writes mirror the scan, for every source.
-/

namespace LoxTokenizer

open Lexeme Token

namespace Machine

variable {source : String} {m m' : Machine} {lexeme : List Char} {stage : Stage} {e : ScanError}

/-! ## Writing while running -/

/-- What a step writes: the size of the source when it has been measured, a token with the place of
its first character when it has been made, and a summary at the end of the source. -/
def notes (m : Machine) : List LogRecord :=
  match m.stage, m.step with
  | .unread, .next _ => [openingRecord (Text.byteLength m.cursor.source)]
  | .complete _, .next m' =>
    m'.tokens.getLast?.toList.map fun t => ⟨.trace, m.start.render ++ " " ++ t.render⟩
  | _, .done => [ScanRun.summary m.tokens m.cursor.place]
  | _, _ => []

/-- What all steps from a state on write. -/
def records (m : Machine) : List LogRecord :=
  match _h : m.step with
  | .next m' => m.notes ++ records m'
  | _ => m.notes
termination_by m.remaining
decreasing_by exact remaining_lt_of_step _h

theorem notes_of_done (h : m.step = .done) :
    m.notes = [ScanRun.summary m.tokens m.cursor.place] := by
  unfold notes
  rw [h]
  cases m.stage <;> rfl

theorem notes_of_failed (h : m.step = .failed e) : m.notes = [] := by
  unfold notes
  rw [h]
  cases m.stage <;> rfl

theorem records_of_next (h : m.step = .next m') : m.records = m.notes ++ m'.records := by
  rw [records]
  split
  · rename_i m'' hnext
    rw [Step.next.inj (h.symm.trans hnext)]
  · rename_i hlast
    exact absurd h (hlast m')

theorem records_of_failed (h : m.step = .failed e) : m.records = [] := by
  rw [records]
  split
  · rename_i m' hnext
    rw [h] at hnext
    cases hnext
  · exact notes_of_failed h

/-- What has been written of a source when some of its tokens have been made. -/
def written (source : String) (m : Machine) : List LogRecord :=
  openingRecord (Text.byteLength source.toList) :: m.tokens.map logRecord

/-! ## Steps within a token -/

/-- A step within a token: no token is added, and an error covers what has been read of the
token. -/
def Step.Within (m : Machine) : Step → Prop
  | .next m' => m'.stage ≠ .unread ∧ m'.tokens = m.tokens
  | .failed e => e.span = m.span
  | .done | .panic _ => True

theorem within_goto (h : stage ≠ .unread) : (m.goto stage).Within m :=
  ⟨h, rfl⟩

theorem within_take (h : stage ≠ .unread) : (m.take stage).Within m := by
  unfold take
  split
  · exact ⟨h, rfl⟩
  · trivial

theorem within_takeWhile {p : Char → Bool} {otherwise : Step} (hstage : m.stage ≠ .unread)
    (h : otherwise.Within m) : (m.takeWhile p otherwise).Within m := by
  unfold takeWhile
  split
  · exact within_take hstage
  · exact h

theorem within_withLexeme {use : List Char → Step} (h : ∀ lexeme, (use lexeme).Within m) :
    (m.withLexeme use).Within m := by
  unfold withLexeme
  split
  · exact h _
  · trivial

/-- No character leads back to the unread source. -/
theorem Stage.ne_unread_of_behind? {c : Char} {next : Option Char}
    (h : Stage.behind? c next = some stage) : stage ≠ .unread := by
  rintro rfl
  have hhead : Stage.behind? c next.toList.head? = some .unread := by cases next <;> exact h
  cases Stage.reads_of_behind? hhead

/-- Only the first step and the last one of a token are not within it. -/
theorem within_step (m : Machine) (hunread : m.stage ≠ .unread)
    (hcomplete : ∀ kind, m.stage ≠ .complete kind) : m.step.Within m := by
  unfold step
  cases hstage : m.stage with
  | unread => exact absurd hstage hunread
  | complete kind => exact absurd hstage (hcomplete kind)
  | between =>
    dsimp only
    split
    · trivial
    · exact within_take (by simp)
  | opened c =>
    dsimp only
    split
    · rfl
    · rename_i hs
      exact within_goto (Stage.ne_unread_of_behind? hs)
  | operator single double =>
    dsimp only
    split
    · exact within_take (by simp)
    · exact within_goto (by simp)
  | secondSlash => exact within_take (by simp)
  | comment => exact within_takeWhile hunread (within_goto (by simp))
  | string =>
    refine within_takeWhile hunread ?_
    split
    · exact within_take (by simp)
    · rfl
  | whole =>
    refine within_takeWhile hunread ?_
    split
    · exact within_take (by simp)
    · exact within_goto (by simp)
  | fraction => exact within_takeWhile hunread (within_goto (by simp))
  | word =>
    exact within_takeWhile hunread (within_withLexeme fun lexeme => within_goto (by simp))

/-- The step that makes a token. -/
theorem emit_cases (m : Machine) (kind : TokenKind) :
    (∃ t, m.emit kind = m.loop (m.tokens ++ [t]) ∧ t.span = m.span) ∨
      (∃ e, m.emit kind = .failed e ∧ e.span = m.span) ∨ ∃ p, m.emit kind = .panic p := by
  unfold emit withLexeme
  split
  · dsimp only
    split
    · exact .inr (.inr ⟨_, rfl⟩)
    · split
      · exact .inr (.inl ⟨_, rfl, rfl⟩)
      · exact .inl ⟨_, rfl, rfl⟩
  · exact .inr (.inr ⟨_, rfl⟩)

theorem step_of_complete {kind : TokenKind} (h : m.stage = .complete kind) :
    m.step = m.emit kind := by
  unfold step
  rw [h]

/-! ## The step and the run -/

/-- **What a step writes** is all that is new in what has been written. -/
theorem written_append_notes (source : String) (hunread : m.stage ≠ .unread)
    (h : m.step = .next m') :
    m'.stage ≠ .unread ∧ m.written source ++ m.notes = m'.written source := by
  unfold notes
  rw [h]
  cases hstage : m.stage with
  | unread => exact absurd hstage hunread
  | complete kind =>
    rw [step_of_complete hstage] at h
    rcases m.emit_cases kind with ⟨t, hloop, hspan⟩ | ⟨e, hfailed, -⟩ | ⟨p, hpanic⟩
    · obtain rfl := Step.next.inj (h.symm.trans hloop)
      have hrecord : t.logRecord = ⟨.trace, m.start.render ++ " " ++ t.render⟩ := by
        unfold logRecord
        rw [hspan]
        rfl
      exact ⟨by simp, by simp [written, hrecord]⟩
    · rw [h] at hfailed
      cases hfailed
    · rw [h] at hpanic
      cases hpanic
  | _ =>
    have hwithin := m.within_step hunread (by simp [hstage])
    rw [h] at hwithin
    refine ⟨hwithin.1, ?_⟩
    unfold written
    rw [hwithin.2]
    exact List.append_nil _

theorem span_of_failed (hunread : m.stage ≠ .unread) (h : m.step = .failed e) :
    e.span = m.span := by
  by_cases hcomplete : ∃ kind, m.stage = .complete kind
  · obtain ⟨kind, hstage⟩ := hcomplete
    rw [step_of_complete hstage] at h
    rcases m.emit_cases kind with ⟨t, hloop, -⟩ | ⟨e', hfailed, hspan⟩ | ⟨p, hpanic⟩
    · rw [h] at hloop
      cases hloop
    · rw [h] at hfailed
      cases hfailed
      exact hspan
    · rw [h] at hpanic
      cases hpanic
  · have hwithin := m.within_step hunread fun kind hstage => hcomplete ⟨kind, hstage⟩
    rwa [h] at hwithin

namespace Reading

/-- **Where a step fails**, all tokens before the error have been made: a munch does not go past the
error, and the error starts behind the tokens made so far. -/
theorem run_of_failed (h : m.Reading source lexeme)
    (hle : Text.byteLength source.toList ≤ maxSourceLength) (hunread : m.stage ≠ .unread)
    (hfailed : m.step = .failed e) : ScanRun.of source = ⟨m.tokens, .error e⟩ := by
  have hsound := h.sound hle
  rw [hfailed] at hsound
  obtain ⟨tokens, c, rest, hm, hp, hfirst⟩ := (scan_eq_error_iff hle).mp hsound
  have hfault := first_eq_error_iff_faultAt.mp hfirst
  obtain ⟨fault, hr⟩ := hfault.exists_recognize
  obtain ⟨later, hlater⟩ := h.munch.isPrefix_of_stuck hm hr
  have hstart : e.position.offset = Text.byteLength m.before := by
    unfold ScanError.position
    rw [span_of_failed hunread hfailed, h.span_eq]
    exact Position.offset_start_after _
  have hbytes : Text.byteLength (spelling later) = 0 := by
    rw [hfault.position_offset, ← hlater, spelling_append, Text.byteLength_append] at hstart
    unfold before at hstart
    omega
  have hspelling : spelling later = [] := Text.eq_nil_of_byteLength hbytes
  have hnil : later = [] := by
    refine List.eq_nil_iff_forall_not_mem.mpr fun piece hpiece => ?_
    have hmem : piece ∈ tokens.map Token.piece := hlater ▸ List.mem_append_right _ hpiece
    exact hm.ne_nil_of_mem piece hmem (List.flatMap_eq_nil_iff.mp hspelling piece hpiece)
  rw [hnil, List.append_nil] at hlater
  rw [h.placed.eq hp hlater]
  exact ScanRun.startingAt_eq_error_iff.mpr ⟨c, rest, hm, hp, hfirst⟩

/-- **A run writes the whole log**: what has been written when a state is reached, and the records
from there on. -/
theorem written_append_records (h : m.Reading source lexeme)
    (hle : Text.byteLength source.toList ≤ maxSourceLength) (hunread : m.stage ≠ .unread) :
    m.written source ++ m.records = scanLog source := by
  fun_induction Machine.records m generalizing lexeme with
  | case1 m m' hstep ih =>
    have hsound := h.sound hle
    rw [hstep] at hsound
    obtain ⟨lexeme', h'⟩ := hsound
    obtain ⟨hunread', hwritten⟩ := written_append_notes source hunread hstep
    rw [← List.append_assoc, hwritten]
    exact ih h' hunread'
  | case2 m hlast =>
    have hsound := h.sound hle
    cases hstep : m.step with
    | next m' => exact absurd hstep (hlast m')
    | done =>
      rw [hstep] at hsound
      obtain ⟨hscan, -, hplace⟩ := hsound
      rw [notes_of_done hstep, hplace, scanLog_of_scan hscan]
      rfl
    | failed e =>
      rw [notes_of_failed hstep, List.append_nil]
      exact (scanLog_of_run_error hle (h.run_of_failed hle hunread hstep)).symm
    | panic p =>
      rw [hstep] at hsound
      exact hsound.elim

end Reading

/-- The first step measures the source. -/
theorem step_of (hle : Text.byteLength source.toList ≤ maxSourceLength) :
    (Machine.of source).step = .next { Machine.of source with stage := .between } := by
  have hcheck := checkSourceLength_of_le hle
  simp only [step, Machine.of, Cursor.of, hcheck]
  rfl

/-- **The machine writes the log of the scan**, for every source. -/
theorem records_eq (source : String) : (Machine.of source).records = scanLog source := by
  by_cases hle : Text.byteLength source.toList ≤ maxSourceLength
  · have hsound := (reading_of source).sound hle
    have hnotes : (Machine.of source).notes = [openingRecord (Text.byteLength source.toList)] := by
      unfold notes
      rw [step_of hle]
      rfl
    rw [step_of hle] at hsound
    obtain ⟨lexeme, hreading⟩ := hsound
    rw [records_of_next (step_of hle), hnotes, ← hreading.written_append_records hle (by simp)]
    rfl
  · have hlarge := Nat.not_le.mp hle
    rw [scanLog_of_large hlarge, records_of_failed (step_of_large hlarge)]

end Machine

/-! ## The log of a scan -/

/-- **The records of a scan**, told by its answer. -/
inductive Mirrors (source : String) : List LogRecord → Prop where
  /-- All of the source is scanned: its size, a record for each token, and a summary that counts the
  tokens and the lines. -/
  | scanned {tokens : List Token} {traces : List LogRecord} (hscan : scan source = .ok tokens)
      (htraces : List.Forall₂ (RecordedIn source.toList) tokens traces) :
      Mirrors source (openingRecord (Text.byteLength source.toList) :: traces ++
        [⟨.debug, "scanned " ++ toString tokens.length ++ " tokens over " ++
          toString (1 + source.toList.count '\n') ++ " lines"⟩])
  /-- The scan fails: the size of the source and the records of the tokens before the error, which
  are those of the text before the error, scanned alone. There is no summary. -/
  | failed {e : ScanError} {before : List Char} {tokens : List Token} {traces : List LogRecord}
      (hle : Text.byteLength source.toList ≤ maxSourceLength) (hscan : scan source = .error e)
      (hbefore : Text.slice? source.toList 0 e.position.offset = some before)
      (halone : scan (String.ofList before) = .ok tokens)
      (htraces : List.Forall₂ (RecordedIn source.toList) tokens traces)
      (hsame : traces = (scanLog (String.ofList before)).filter (·.level = .trace)) :
      Mirrors source (openingRecord (Text.byteLength source.toList) :: traces)
  /-- The source is refused unread. -/
  | refused (h : maxSourceLength < Text.byteLength source.toList) : Mirrors source []

variable {source : String}

theorem filter_trace_of_scan {tokens : List Token} (h : scan source = .ok tokens) :
    (scanLog source).filter (·.level = .trace) = tokens.map logRecord := by
  rw [scanLog_of_scan h]
  simp [openingRecord, ScanRun.summary, logRecord]

theorem mirrors_scanLog (source : String) : Mirrors source (scanLog source) := by
  by_cases hle : Text.byteLength source.toList ≤ maxSourceLength
  · cases h : scan source with
    | ok tokens =>
      obtain ⟨-, hm, hp⟩ := scan_eq_ok_iff.mp h
      have hlines : (Position.start.after source.toList).line = 1 + source.toList.count '\n' := by
        rw [Position.start_after]
        rfl
      have htraces := recordedIn_of_placed hp []
      rw [← hm.eq_spelling, List.append_nil] at htraces
      rw [scanLog_of_scan h, ScanRun.summary, hlines]
      exact .scanned h htraces
    | error e =>
      obtain ⟨before, rest, tokens, hsource, hoffset, hrun, halone⟩ :=
        exists_run_of_scan_error hle h
      obtain ⟨-, hm, hp⟩ := scan_eq_ok_iff.mp halone
      have htraces := recordedIn_of_placed hp rest
      rw [← hm.eq_spelling, String.toList_ofList, ← hsource] at htraces
      rw [scanLog_of_run_error hle hrun]
      refine .failed hle h ?_ halone htraces (filter_trace_of_scan halone).symm
      rw [hsource, hoffset]
      exact Text.slice?_start before rest
  · rw [scanLog_of_large (Nat.not_le.mp hle)]
    exact .refused (Nat.not_le.mp hle)

/-- **The log of a scan mirrors it**, for every source. The machine writes it as it goes; at the
level of traces all of it is kept, and mirrors the answer of the scan; at the level of debugging the
same records are kept, less the traces. -/
theorem log_mirrors_scan (source : String) :
    (Machine.of source).records = scanLog source ∧
      Mirrors source (LogThreshold.trace.filter (scanLog source)) ∧
      LogThreshold.debug.filter (scanLog source) =
        (LogThreshold.trace.filter (scanLog source)).filter (·.level ≠ .trace) := by
  have hall : LogThreshold.trace.filter (scanLog source) = scanLog source :=
    List.filter_eq_self.mpr fun _ _ => rfl
  refine ⟨Machine.records_eq source, ?_, ?_⟩
  · rw [hall]
    exact mirrors_scanLog source
  · rw [hall]
    refine List.filter_congr fun record _ => ?_
    cases record.level <;> rfl

/-- A string over two lines, told under its first one, a line feed, and an error: no summary. -/
theorem log_mirrors_scan_lines : (Machine.of "\"é\n\"\n@").records =
    [⟨.debug, "scanning 7 bytes"⟩, ⟨.trace, "1:1 STRING \"\\\"é\\n\\\"\" \"é\\n\""⟩,
      ⟨.trace, "2:2 NEWLINE \"\\n\" \"\\n\""⟩] := by
  rw [(log_mirrors_scan _).1]
  decide +kernel

end LoxTokenizer
