import LoxTokenizer.CommandLine
import LoxTokenizer.Proofs.Machine.Reading
import LoxTokenizer.Proofs.Scan.FirstError

/-!
# The program with its panics

Two things that the program asks for may have no answer: a scan may panic, and a label that ends
before it starts cannot be drawn. `CommandLine.run` takes both for granted. Here is the program that
does not, and stops where there is no answer.

* `Crash`: what stops the program.
* `CommandLine.attempt`: the program, which ends with an outcome or a crash.
* `FaultAt.exists_span`, **`ScanError.attemptReport_eq`**: the label of a scan's error is in order.
* **`CommandLine.attempt_eq`**: the program ends without a crash, and as `CommandLine.run` says.
-/

namespace LoxTokenizer

/-- What stops the program. -/
inductive Crash where
  | scan (p : Panic)
  /-- A label that ends before it starts. -/
  | label
  deriving DecidableEq, Repr

/-! ## The program -/

/-- Scans a source with the machine. -/
def Settings.attemptScan (s : Settings) (source : String) :
    Except Crash (Except ScanError (List Token)) :=
  (if s.eof then Machine.resultWithEof source else Machine.result source).mapError .scan

/-- The report of a lexical error over its source. -/
def ScanError.attemptReport (e : ScanError) (file source : String) : Except Crash String :=
  match Report.render? file source e.diagnostic with
  | some text => .ok text
  | none => .error .label

/-- Runs over a file. -/
def FileRun.attempt (disk : Disk) (settings : Settings) (output : Sink) (file : Path) :
    Except Crash Outcome :=
  match disk.readText file with
  | .error cause =>
    .ok ⟨.ioFailure, output.bytes,
      errorLine ("could not read '" ++ file.text ++ "': " ++ cause.message)⟩
  | .ok source =>
    (settings.attemptScan source).bind fun
      | .error e =>
        (e.attemptReport (file.fileName?.getD "") source).map fun text =>
          ⟨.badData, output.bytes, text⟩
      | .ok tokens => .ok (list settings output file tokens)

namespace Prompt

/-- The answer to a line. -/
def attemptReply (settings : Settings) (line : List UInt8) : Except Crash Reply :=
  match decodeUtf8? line with
  | none => .ok .unreadable
  | some text =>
    (settings.attemptScan (trimEnd text)).bind fun
      | .ok tokens => .ok (.listing (settings.listing tokens))
      | .error e => (e.attemptReport inputName (trimEnd text)).map .report

/-- A run over the lines that are left, from what has been written and read so far. -/
def attemptLines (settings : Settings) (output : Sink) (errors : String) (consumed : Nat) :
    List (List UInt8) → Except Crash PromptOutcome
  | [] => .ok (runLines settings output errors consumed [])
  | line :: rest =>
    match ask settings output with
    | .error full => .ok ⟨⟨.ioFailure, full.bytes, errors ++ promptFailure⟩, consumed⟩
    | .ok output =>
      let consumed := consumed + line.length
      (attemptReply settings line).bind fun
        | .unreadable => .ok ⟨⟨.ioFailure, output.bytes, errors ++ inputFailure⟩, consumed⟩
        | .report text => attemptLines settings output (errors ++ text) consumed rest
        | .listing pieces =>
          match output.writeAll pieces with
          | .error full => .ok ⟨⟨.ioFailure, full.bytes, errors ++ listingFailure⟩, consumed⟩
          | .ok output => attemptLines settings output errors consumed rest

/-- A run at the prompt over an input. -/
def attempt (settings : Settings) (output : Sink) (input : List UInt8) :
    Except Crash PromptOutcome :=
  attemptLines settings output "" 0 (lines input)

end Prompt

namespace CommandLine

/-- A run with some flags. -/
def attemptWith (disk : Disk) (input : List UInt8) (flags : Flags) : Except Crash Outcome :=
  match Settings.load disk flags with
  | .error e => .ok ⟨.badConfig, [], errorLine e.message⟩
  | .ok settings =>
    match flags.file with
    | some file => FileRun.attempt disk settings .unlimited file
    | none => (Prompt.attempt settings .unlimited input).map fun o => o.toOutcome

/-- **The program**, which ends with an outcome or a crash. -/
def attempt (disk : Disk) (input : List UInt8) (arguments : List String) : Except Crash Outcome :=
  match Flags.parse arguments with
  | .error interruption => .ok (interrupted interruption)
  | .ok flags => attemptWith disk input flags

end CommandLine

/-! ## Labels -/

theorem Text.charIndex_byteLength (before rest : List Char) :
    charIndex (before ++ rest) (byteLength before) = before.length := by
  unfold charIndex
  rw [splitAt?_byteLength]

/-- The span of a fault covers a text that starts at it. -/
theorem FaultAt.exists_span {before rest : List Char} {c : Char} {e : ScanError}
    (h : FaultAt before c rest e) : ∃ faulty behind, c :: rest = faulty ++ behind ∧
      e.span = ⟨Position.start.after before, Position.start.after (before ++ faulty)⟩ := by
  cases h with
  | unterminatedString => exact ⟨'"' :: rest, [], by simp, rfl⟩
  | unexpectedCharacter => exact ⟨[c], rest, rfl, rfl⟩

/-- The label of a span that covers a part of the source is in order. -/
theorem Report.Label.start_le_stop (before faulty behind : List Char) :
    (Label.ofSpan (before ++ (faulty ++ behind))
      ⟨Position.start.after before, Position.start.after (before ++ faulty)⟩).start ≤
    (Label.ofSpan (before ++ (faulty ++ behind))
      ⟨Position.start.after before, Position.start.after (before ++ faulty)⟩).stop := by
  have hstop : Text.charIndex (before ++ (faulty ++ behind)) (Text.byteLength (before ++ faulty)) =
      (before ++ faulty).length := by
    rw [← List.append_assoc]
    exact Text.charIndex_byteLength (before ++ faulty) behind
  unfold Label.ofSpan
  dsimp only
  rw [Position.offset_start_after, Position.offset_start_after, hstop, Text.charIndex_byteLength]
  split
  · exact Nat.le_succ _
  · rw [List.length_append]
    exact Nat.le_add_right _ _

theorem FaultAt.diagnostic_span {before rest : List Char} {c : Char} {e : ScanError}
    (h : FaultAt before c rest e) : e.diagnostic.span = some e.span := by
  cases h <;> rfl

/-- **The error of a scan can be drawn**: a source that is refused unread has no label, and the
label of a fault is in order. -/
theorem Report.exists_render {e : ScanError} {source : String} (h : scan source = .error e)
    (file : String) : ∃ text, render? file source e.diagnostic = some text := by
  by_cases hle : Text.byteLength source.toList ≤ maxSourceLength
  · obtain ⟨before, c, rest, -, hsource, -, -, hfault⟩ := (scan_eq_error_iff_faultAt hle).mp h
    obtain ⟨faulty, behind, hrest, hspan⟩ := hfault.exists_span
    have hlabel := Label.start_le_stop before faulty behind
    rw [← hrest, ← hsource, ← hspan] at hlabel
    unfold render?
    rw [hfault.diagnostic_span]
    exact ⟨_, if_neg (Nat.not_lt.mpr hlabel)⟩
  · obtain rfl := Except.error.inj (h.symm.trans (scan_of_large (Nat.not_le.mp hle)))
    exact ⟨_, rfl⟩

theorem ScanError.attemptReport_eq {e : ScanError} {source : String} (h : scan source = .error e)
    (file : String) : e.attemptReport file source = .ok (e.report file source) := by
  obtain ⟨text, htext⟩ := Report.exists_render h file
  unfold attemptReport report
  rw [htext]
  rfl

/-! ## No crash -/

variable {settings : Settings} {source : String} {e : ScanError}

theorem Settings.attemptScan_eq (settings : Settings) (source : String) :
    settings.attemptScan source = .ok (settings.scan source) := by
  unfold attemptScan scan
  by_cases heof : settings.eof = true
  · rw [if_pos heof, if_pos heof, Machine.resultWithEof_eq]
    rfl
  · rw [if_neg heof, if_neg heof, Machine.result_eq]
    rfl

/-- The marker of the end has no part in an error. -/
theorem Settings.scan_eq_error_iff :
    settings.scan source = .error e ↔ LoxTokenizer.scan source = .error e := by
  unfold scan
  by_cases heof : settings.eof = true
  · rw [if_pos heof]
    exact scanWithEof_eq_error_iff
  · rw [if_neg heof]

theorem FileRun.attempt_eq (disk : Disk) (settings : Settings) (output : Sink) (file : Path) :
    attempt disk settings output file = .ok (run disk settings output file) := by
  unfold attempt run
  cases disk.readText file with
  | error cause => rfl
  | ok source =>
    dsimp only
    rw [settings.attemptScan_eq source]
    cases hs : settings.scan source with
    | ok tokens => simp [Except.bind]
    | error e =>
      have hreport := ScanError.attemptReport_eq (Settings.scan_eq_error_iff.mp hs)
      simp [Except.bind, Except.map, hreport]

namespace Prompt

theorem attemptReply_eq (settings : Settings) (line : List UInt8) :
    attemptReply settings line = .ok (reply settings line) := by
  unfold attemptReply reply
  cases decodeUtf8? line with
  | none => rfl
  | some text =>
    dsimp only
    rw [settings.attemptScan_eq (trimEnd text)]
    cases hs : settings.scan (trimEnd text) with
    | ok tokens => simp [Except.bind]
    | error e =>
      have hreport := ScanError.attemptReport_eq (Settings.scan_eq_error_iff.mp hs)
      simp [Except.bind, Except.map, hreport]

/-- A run over some lines goes on without a crash, whatever has been written before. -/
theorem attemptLines_eq (settings : Settings) (lines : List (List UInt8)) (output : Sink)
    (errors : String) (consumed : Nat) : attemptLines settings output errors consumed lines =
      .ok (runLines settings output errors consumed lines) := by
  induction lines generalizing output errors consumed with
  | nil => rfl
  | cons line rest ih =>
    unfold attemptLines runLines
    cases ask settings output with
    | error full => rfl
    | ok asked =>
      dsimp only
      rw [attemptReply_eq]
      cases reply settings line with
      | unreadable => rfl
      | report text => exact ih asked (errors ++ text) _
      | listing pieces =>
        simp only [Except.bind]
        cases asked.writeAll pieces with
        | error full => rfl
        | ok written => exact ih written errors _

end Prompt

/-- **The program ends without a crash**, with the outcome that takes all answers for granted. -/
theorem CommandLine.attempt_eq (disk : Disk) (input : List UInt8) (arguments : List String) :
    attempt disk input arguments = .ok (run disk input arguments) := by
  unfold attempt run
  cases Flags.parse arguments with
  | error interruption => rfl
  | ok flags =>
    dsimp only
    unfold attemptWith runWith
    cases Settings.load disk flags with
    | error e => rfl
    | ok settings =>
      dsimp only
      cases flags.file with
      | some file => exact FileRun.attempt_eq disk settings .unlimited file
      | none =>
        dsimp only
        rw [Prompt.attempt, Prompt.attemptLines_eq]
        rfl

end LoxTokenizer
