import LoxTokenizer.Proofs.Program.Panics
import LoxTokenizer.Proofs.Scan.Tiling

/-!
# The label of a report

A scan tells in bytes where its error is, and a report counts characters. On the way from the one
to the other an offset that is no cut of the source is silently taken for its end, and a span
without a character is drawn as one character wide. Neither happens to the error of a scan: both
ends of its span are cuts with some characters between them, and these the label covers.

* `Report.Label.Marks`: the label of a span covers a text.
* **`Report.Label.marks_ofSpan`**: the label of a span between two places of the source covers what
  stands between them.
* `FaultyText`: the characters at fault, the one that starts no lexeme or all from an open quote on.
* **`report_labels_fault`**: the label of a scan's error covers the characters at fault.
-/

namespace LoxTokenizer

/-! ## The label of a span -/

namespace Report.Label

/-- **The label of a span covers a text.** Both ends of the span are cuts of the source, and the
label counts the characters before them. -/
structure Marks (source : List Char) (span : Span) (l : Label) (text : List Char) : Prop where
  start : ∃ before rest, Text.splitAt? source span.start.offset = some (before, rest) ∧
    l.start = before.length
  stop : ∃ upto behind, Text.splitAt? source span.stop.offset = some (upto, behind) ∧
    l.stop = upto.length
  /-- The span is not widened. -/
  isEmpty : span.isEmpty = false
  start_lt_stop : l.start < l.stop
  stop_le_length : l.stop ≤ source.length
  chars : (source.drop l.start).take (l.stop - l.start) = text
  bytes : Text.slice? source span.start.offset span.stop.offset = some text

variable {text : List Char}

/-- A text with a character has a byte, so a span over it is not empty. -/
theorem isEmpty_of_ne_nil (before : List Char) (hne : text ≠ []) : Span.isEmpty
    ⟨Position.start.after before, Position.start.after (before ++ text)⟩ = false := by
  have hchars : 0 < text.length := List.length_pos_iff.mpr hne
  have hbytes : 0 < Text.byteLength text := hchars.trans_le (Text.length_le_byteLength text)
  unfold Span.isEmpty
  simp only [Position.offset_start_after, Text.byteLength_append, beq_eq_false_iff_ne]
  omega

theorem ofSpan_of_ne_nil (before behind : List Char) (hne : text ≠ []) :
    ofSpan (before ++ text ++ behind)
      ⟨Position.start.after before, Position.start.after (before ++ text)⟩ =
        ⟨before.length, (before ++ text).length⟩ := by
  have hstart : Text.charIndex (before ++ text ++ behind) (Text.byteLength before) =
      before.length := by
    rw [List.append_assoc]
    exact Text.charIndex_byteLength before (text ++ behind)
  have hstop := Text.charIndex_byteLength (before ++ text) behind
  unfold ofSpan
  simp only [isEmpty_of_ne_nil before hne, Position.offset_start_after, hstart, hstop]
  rfl

/-- **The label of a span** between two places of the source covers what stands between them. -/
theorem marks_ofSpan (before behind : List Char) (hne : text ≠ []) :
    Marks (before ++ text ++ behind)
      ⟨Position.start.after before, Position.start.after (before ++ text)⟩
      (ofSpan (before ++ text ++ behind)
        ⟨Position.start.after before, Position.start.after (before ++ text)⟩) text := by
  have hchars : 0 < text.length := List.length_pos_iff.mpr hne
  rw [ofSpan_of_ne_nil before behind hne]
  constructor
  case start =>
    refine ⟨before, text ++ behind, ?_, rfl⟩
    rw [Position.offset_start_after, List.append_assoc]
    exact Text.splitAt?_byteLength before (text ++ behind)
  case stop =>
    refine ⟨before ++ text, behind, ?_, rfl⟩
    rw [Position.offset_start_after]
    exact Text.splitAt?_byteLength (before ++ text) behind
  case isEmpty => exact isEmpty_of_ne_nil before hne
  case start_lt_stop =>
    rw [List.length_append]
    exact Nat.lt_add_of_pos_right hchars
  case stop_le_length => exact (List.sublist_append_left (before ++ text) behind).length_le
  case chars => simp
  case bytes =>
    rw [Position.offset_start_after, Position.offset_start_after]
    exact Text.slice?_append before text behind

end Report.Label

/-! ## The characters at fault -/

/-- **The characters at fault** in a source: the one that starts no lexeme, or everything from an
open quote to the end. -/
inductive FaultyText (source : List Char) (l : Report.Label) : ScanError → List Char → Prop where
  | unexpectedCharacter {c : Char} {span : Span} (h : l.stop = l.start + 1) :
      FaultyText source l (.unexpectedCharacter c span) [c]
  | unterminatedString {rest : List Char} {span : Span} (h : source.drop l.start = '"' :: rest)
      (hstop : l.stop = source.length) :
      FaultyText source l (.unterminatedString span) ('"' :: rest)

/-- **The label of a fault** covers the characters at fault. -/
theorem FaultAt.exists_marks {before rest : List Char} {c : Char} {e : ScanError}
    (h : FaultAt before c rest e) : ∃ text,
      (Report.Label.ofSpan (before ++ c :: rest) e.span).Marks (before ++ c :: rest) e.span text ∧
        FaultyText (before ++ c :: rest) (.ofSpan (before ++ c :: rest) e.span) e text := by
  cases h with
  | unterminatedString _ =>
    have hne : '"' :: rest ≠ [] := List.cons_ne_nil _ _
    have hmarks := Report.Label.marks_ofSpan before [] hne
    have hlabel := Report.Label.ofSpan_of_ne_nil before [] hne
    rw [List.append_nil] at hmarks hlabel
    refine ⟨'"' :: rest, hmarks, ?_⟩
    unfold ScanError.span
    rw [hlabel]
    exact .unterminatedString List.drop_left rfl
  | unexpectedCharacter _ =>
    have hne : [c] ≠ [] := List.cons_ne_nil _ _
    have hmarks := Report.Label.marks_ofSpan before rest hne
    have hlabel := Report.Label.ofSpan_of_ne_nil before rest hne
    rw [← List.append_cons] at hmarks hlabel
    refine ⟨[c], hmarks, ?_⟩
    unfold ScanError.span
    rw [hlabel]
    exact .unexpectedCharacter List.length_append

/-- A scan that reads its source fails at a fault. -/
theorem exists_faultAt_of_scan {settings : Settings} {source : String} {e : ScanError}
    (h : settings.scan source = .error e) (hread : ∀ bytes, e ≠ .sourceTooLarge bytes) :
    ∃ before c rest, source.toList = before ++ c :: rest ∧ FaultAt before c rest e := by
  have hscan := Settings.scan_eq_error_iff.mp h
  by_cases hle : Text.byteLength source.toList ≤ maxSourceLength
  · obtain ⟨before, c, rest, -, hsource, -, -, hfault⟩ := (scan_eq_error_iff_faultAt hle).mp hscan
    exact ⟨before, c, rest, hsource, hfault⟩
  · have hlarge := scan_of_large (Nat.not_le.mp hle)
    exact absurd (Except.error.inj (hscan.symm.trans hlarge)) (hread _)

/-- The report of a fault is drawn with the label of its span. -/
theorem FaultAt.report_eq {source : String} {before rest : List Char} {c : Char} {e : ScanError}
    (h : FaultAt before c rest e) (hsource : source.toList = before ++ c :: rest) (file : String) :
    e.report file source =
      Report.draw file source.toList (.ofSpan source.toList e.span) e.diagnostic := by
  obtain ⟨text, hmarks, -⟩ := h.exists_marks
  rw [← hsource] at hmarks
  have horder := Nat.not_lt.mpr (Nat.le_of_lt hmarks.start_lt_stop)
  unfold ScanError.report Report.render?
  rw [h.diagnostic_span]
  dsimp only
  rw [if_neg horder, Option.getD_some]

/-- **A report labels the characters at fault.** Whatever the settings are, an error of a scan that
has read its source keeps its span as a diagnostic, and its report is drawn over the source with a
label of one character or more. It covers exactly the text of the span, which is the character that
starts no lexeme, or everything from the open quote to the end of the source. -/
theorem report_labels_fault {settings : Settings} {source : String} {e : ScanError}
    (h : settings.scan source = .error e) (hread : ∀ bytes, e ≠ .sourceTooLarge bytes) :
    e.diagnostic.span = some e.span ∧
    ∃ label text, label = Report.Label.ofSpan source.toList e.span ∧
      (∀ file, e.report file source = Report.draw file source.toList label e.diagnostic) ∧
      label.Marks source.toList e.span text ∧
      FaultyText source.toList label e text := by
  obtain ⟨before, c, rest, hsource, hfault⟩ := exists_faultAt_of_scan h hread
  obtain ⟨text, hmarks, hfaulty⟩ := hfault.exists_marks
  rw [← hsource] at hmarks hfaulty
  exact ⟨hfault.diagnostic_span, _, text, rfl, fun file => hfault.report_eq hsource file, hmarks,
    hfaulty⟩

/-- A character behind a two-byte one, and a string that stays open over two lines. -/
theorem report_labels_fault_bytes :
    (∃ e, (⟨.text, true, true, "> ", false⟩ : Settings).scan "//é\n@λ" = .error e ∧
      Report.Label.ofSpan "//é\n@λ".toList e.span = ⟨4, 5⟩ ∧
      (Report.Label.ofSpan "//é\n@λ".toList e.span).Marks "//é\n@λ".toList e.span ['@']) ∧
    ∃ e, (⟨.text, true, false, "> ", false⟩ : Settings).scan "1\"λ\né" = .error e ∧
      (Report.Label.ofSpan "1\"λ\né".toList e.span).Marks "1\"λ\né".toList e.span
        "\"λ\né".toList := by
  constructor
  · have he : (scan "//é\n@λ").map (List.map Token.piece) =
        .error (.unexpectedCharacter '@' ⟨⟨2, 1, 5⟩, ⟨2, 2, 6⟩⟩) := by
      decide +kernel
    have hscan : (⟨.text, true, true, "> ", false⟩ : Settings).scan "//é\n@λ" = .error _ :=
      Settings.scan_eq_error_iff.mpr (eq_error_of_map he)
    obtain ⟨-, label, text, rfl, -, hmarks, hfaulty⟩ :=
      report_labels_fault hscan fun bytes heq => by cases heq
    cases hfaulty
    exact ⟨_, hscan, by decide +kernel, hmarks⟩
  · have he : (scan "1\"λ\né").map (List.map Token.piece) =
        .error (.unterminatedString ⟨⟨1, 2, 1⟩, ⟨2, 2, 7⟩⟩) := by
      decide +kernel
    have hscan : (⟨.text, true, false, "> ", false⟩ : Settings).scan "1\"λ\né" = .error _ :=
      Settings.scan_eq_error_iff.mpr (eq_error_of_map he)
    obtain ⟨-, label, text, rfl, -, hmarks, hfaulty⟩ :=
      report_labels_fault hscan fun bytes heq => by cases heq
    have htext : text = "\"λ\né".toList := by
      rw [← hmarks.chars]
      decide +kernel
    rw [htext] at hmarks
    exact ⟨_, hscan, hmarks⟩

end LoxTokenizer
