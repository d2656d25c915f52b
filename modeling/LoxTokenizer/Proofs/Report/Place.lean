import LoxTokenizer.Proofs.Output.Entry
import LoxTokenizer.Proofs.Report.Label
import LoxTokenizer.Proofs.Report.LineEnds
import LoxTokenizer.Proofs.Text.Cut

/-!
# The place in the header of a report

A report of a scan's error names its place twice: in the message, as the scan has counted it, and in
the header, as the report counts it. The two agree exactly where nothing before the error ends a
line but line feeds, alone or behind a carriage return.

* `ShowsPlace`: the line and the column in the header of a report. `ShowsPlace.unique`: there is
  one of each.
* **`FaultAt.showsPlace`**: the header of a fault shows the place that a report gives to it.
* **`report_shows_place_iff`**: it is the place in the message exactly where only line feeds end a
  line before the error.
-/

namespace LoxTokenizer

/-! ## The header -/

namespace Report

/-- A report up to the place in its header. -/
def header (message file : String) (margin line column : Nat) : String :=
  Colour.paint .fault "Error:" ++ " " ++ message ++ "\n"
    ++ (spaces margin ++ Colour.paintEach .margin "╭─[" ++ file ++ ":" ++ toString line ++ ":"
      ++ toString column ++ Colour.paint .margin "]")

/-- **The place in the header** of a report with some message over some file. -/
def ShowsPlace (report message file : String) (line column : Nat) : Prop :=
  ∃ margin rest, report = header message file margin line column ++ rest

variable {report message file : String} {line column line' column' : Nat}

/-- Two texts that go on with a character that neither has are told apart from what follows. -/
theorem append_inj_of_stop {a b x y : String} {stop : Char} (ha : stop ∉ a.toList)
    (hb : stop ∉ b.toList) (hx : x.toList.head? = some stop) (hy : y.toList.head? = some stop)
    (h : a ++ x = b ++ y) : a = b ∧ x = y := by
  obtain ⟨restx, hrestx⟩ := List.head?_eq_some_iff.mp hx
  obtain ⟨resty, hresty⟩ := List.head?_eq_some_iff.mp hy
  have hchars := congrArg String.toList h
  rw [String.toList_append, String.toList_append, hrestx, hresty] at hchars
  obtain ⟨hab, hrest⟩ := CutAfter.append_stop_inj ha hb hchars
  refine ⟨String.toList_inj.mp hab, String.toList_inj.mp ?_⟩
  rw [hrestx, hresty, hrest]

theorem head?_append {a : String} {c : Char} (h : a.toList.head? = some c) (b : String) :
    (a ++ b).toList.head? = some c := by
  rw [String.toList_append, List.head?_append, h]
  rfl

theorem not_mem_spaces {c : Char} (h : c ≠ ' ') (n : Nat) : c ∉ (spaces n).toList := by
  unfold spaces
  rw [String.toList_ofList]
  exact fun hmem => h (List.eq_of_mem_replicate hmem)

theorem not_mem_toString {c : Char} (h : c.isDigit = false) (n : Nat) :
    c ∉ (toString n).toList := by
  rw [Nat.toString_eq_ofList_toDigits, String.toList_ofList]
  exact Listing.not_mem_toDigits h n

theorem toString_inj {n m : Nat} (h : toString n = toString m) : n = m := by
  have hdigits := congrArg String.toList h
  rw [Nat.toString_eq_ofList_toDigits, Nat.toString_eq_ofList_toDigits, String.toList_ofList,
    String.toList_ofList] at hdigits
  rw [← Nat.ofDigitChars_ten_toDigits (n := n), hdigits, Nat.ofDigitChars_ten_toDigits]

/-- **One place.** The margin ends at a control character, and the numbers at what is no digit. -/
theorem ShowsPlace.unique (h : ShowsPlace report message file line column)
    (h' : ShowsPlace report message file line' column') : line = line' ∧ column = column' := by
  obtain ⟨margin, rest, rfl⟩ := h
  obtain ⟨margin', rest', heq⟩ := h'
  simp only [header, String.append_assoc, String.append_right_inj] at heq
  obtain ⟨-, heq⟩ := append_inj_of_stop (not_mem_spaces (by decide) margin)
    (not_mem_spaces (by decide) margin') (head?_append (c := '\x1b') (by decide) _)
    (head?_append (by decide) _) heq
  rw [String.append_right_inj, String.append_right_inj, String.append_right_inj] at heq
  obtain ⟨hline, heq⟩ := append_inj_of_stop (not_mem_toString (by decide) line)
    (not_mem_toString (by decide) line') (head?_append (c := ':') (by decide) _)
    (head?_append (by decide) _) heq
  rw [String.append_right_inj] at heq
  obtain ⟨hcolumn, -⟩ := append_inj_of_stop (not_mem_toString (by decide) column)
    (not_mem_toString (by decide) column') (head?_append (c := '\x1b') (by decide) _)
    (head?_append (by decide) _) heq
  exact ⟨toString_inj hline, toString_inj hcolumn⟩

/-- The part of a report that shows the source starts with the place. -/
theorem exists_body_eq (file : String) (all : List Line) (first last : Line) (margin : Nat)
    (label : Label) (d : Diagnostic) : ∃ rest, body file all first last margin label d =
      spaces (margin + 2) ++ Colour.paintEach .margin "╭─[" ++ file ++ ":" ++ toString first.number
        ++ ":" ++ toString (label.start - first.start + 1) ++ Colour.paint .margin "]" ++ rest := by
  unfold body
  refine ⟨?rest, ?body⟩
  case body => iterate 7 rw [String.append_assoc]

/-- **The header of a drawing** shows the line on which the label starts, and how far along. -/
theorem showsPlace_draw {source : List Char} {label : Label} {d : Diagnostic} {l : Line}
    (hlabel : label.start < label.stop) (hstop : label.stop ≤ source.length)
    (hline : lineAt? (lines source) label.start = some l) (file : String) :
    ShowsPlace (draw file source label d) d.message file l.number (label.start - l.start + 1) := by
  cases hsource : source with
  | nil =>
    rw [hsource, List.length_nil] at hstop
    omega
  | cons c more =>
  rw [← hsource]
  obtain ⟨last, hlast⟩ := exists_lineAt? c more (label.stop - 1)
  obtain ⟨widest, hwidest⟩ := exists_lineAt? c more label.last
  rw [← hsource] at hlast hwidest
  have hin : ¬ (source.length < label.start ∨ source.length < label.stop - 1) := by omega
  unfold draw
  simp only [if_pos hlabel, if_neg hin, hline, hlast, hwidest]
  obtain ⟨rest, hbody⟩ := exists_body_eq file (lines source) l last
    (toString widest.number).length label d
  refine ⟨(toString widest.number).length + 2, rest, ?_⟩
  simp only [Option.bind_eq_bind, Option.bind_some, Option.getD_some, hbody]
  rw [← String.append_assoc]
  rfl

end Report

/-! ## The place of a fault -/

open Report

namespace FaultAt

variable {source : String} {before rest : List Char} {c : Char} {e : ScanError}

theorem ne_newline (h : FaultAt before c rest e) : c ≠ '\n' := by
  cases h with
  | unterminatedString _ => decide
  | unexpectedCharacter hc =>
    rintro rfl
    exact Lexeme.not_startsNone_of_punctuation rfl hc

/-- The message of a fault ends with the place that the scan has counted. -/
theorem exists_message_eq (h : FaultAt before c rest e) :
    ∃ words, e.message = words ++ " at " ++ e.position.render := by
  cases h with
  | unterminatedString _ => exact ⟨"unterminated string starting", rfl⟩
  | unexpectedCharacter _ =>
    exact ⟨"unexpected character " ++ String.ofList (Text.quoteChar c), rfl⟩

/-- **The header of a fault** shows the place that a report gives to it. -/
theorem showsPlace (h : FaultAt before c rest e) (hsource : source.toList = before ++ c :: rest)
    (file : String) : ShowsPlace (e.report file source) e.message file (1 + lineEnds before)
      (1 + (openLine before).length) := by
  obtain ⟨text, hmarks, -⟩ := h.exists_marks
  obtain ⟨chars, hline⟩ := lineAt?_lines before h.ne_newline rest
  have hstart : (Label.ofSpan (before ++ c :: rest) e.span).start = before.length := by
    unfold Label.ofSpan
    rw [h.start_eq, Position.offset_start_after]
    exact Text.charIndex_byteLength before (c :: rest)
  have hcolumn : before.length - (before.length - (openLine before).length) + 1 =
      1 + (openLine before).length := by
    have hle : (openLine before).length ≤ before.length := (List.rtakeWhile_suffix _ _).length_le
    omega
  rw [← hstart] at hline
  rw [h.report_eq hsource, hsource, ← hcolumn]
  have hshows := showsPlace_draw (d := e.diagnostic) hmarks.start_lt_stop hmarks.stop_le_length
    hline file
  rw [hstart] at hshows
  exact hshows

/-- The two places of a report are one exactly where only line feeds end a line before the fault. -/
theorem place_eq_iff (h : FaultAt before c rest e) :
    e.position.line = 1 + lineEnds before ∧ e.position.column = 1 + (openLine before).length ↔
      OnlyNewlines before := by
  unfold ScanError.position
  rw [h.start_eq, Position.start_after]
  constructor
  · rintro ⟨hline, -⟩
    exact (lineEnds_eq_count_iff before).mp (Nat.add_left_cancel hline).symm
  · intro honly
    refine ⟨?_, ?_⟩
    · rw [(lineEnds_eq_count_iff before).mpr honly]
      rfl
    · rw [openLine_eq_lastLine honly]
      rfl

end FaultAt

/-- **The two places of a report.** Whatever the settings are, the message of an error of a scan
that has read its source ends with the error's position. The header shows one place, and that counts
the line ends of all kinds before the error. So it is the position exactly where nothing ends a line
there but a line feed, alone or right behind a carriage return. -/
theorem report_shows_place_iff {settings : Settings} {source : String} {e : ScanError}
    (h : settings.scan source = .error e) (hread : ∀ bytes, e ≠ .sourceTooLarge bytes) :
    (∃ words, e.message = words ++ " at " ++ e.position.render) ∧
    ∃ before rest, Text.splitAt? source.toList e.position.offset = some (before, rest) ∧
      ∀ file,
        (∀ line column, ShowsPlace (e.report file source) e.message file line column ↔
          line = 1 + lineEnds before ∧ column = 1 + (openLine before).length) ∧
        (ShowsPlace (e.report file source) e.message file e.position.line e.position.column ↔
          OnlyNewlines before) := by
  obtain ⟨before, c, rest, hsource, hfault⟩ := exists_faultAt_of_scan h hread
  refine ⟨hfault.exists_message_eq, before, c :: rest, ?cut, fun file => ?places⟩
  case cut =>
    rw [hfault.position_offset, hsource]
    exact Text.splitAt?_byteLength before (c :: rest)
  case places =>
    have hheader : ∀ line column, ShowsPlace (e.report file source) e.message file line column ↔
        line = 1 + lineEnds before ∧ column = 1 + (openLine before).length := by
      refine fun line column => ⟨fun hshows => hshows.unique (hfault.showsPlace hsource file), ?_⟩
      rintro ⟨rfl, rfl⟩
      exact hfault.showsPlace hsource file
    exact ⟨hheader, (hheader _ _).trans hfault.place_eq_iff⟩

/-- Behind a carriage return and a line feed, the header shows the place of the message. -/
theorem report_shows_place_pair :
    ∃ e, (⟨.text, true, false, "> ", false⟩ : Settings).scan "1\r\n@" = .error e ∧
      e.message = "unexpected character '@' at 2:1" ∧
      ShowsPlace (e.report "a.lox" "1\r\n@") e.message "a.lox" 2 1 := by
  have he : (scan "1\r\n@").map (List.map Token.piece) =
      .error (.unexpectedCharacter '@' ⟨⟨2, 1, 3⟩, ⟨2, 2, 4⟩⟩) := by
    decide +kernel
  have hscan : (⟨.text, true, false, "> ", false⟩ : Settings).scan "1\r\n@" = .error _ :=
    Settings.scan_eq_error_iff.mpr (eq_error_of_map he)
  obtain ⟨-, before, rest, hcut, hshows⟩ := report_shows_place_iff hscan nofun
  obtain rfl : ['1', '\r', '\n'] = before :=
    congrArg Prod.fst (Option.some.inj ((by decide +kernel : _ = some (_, ['@'])).symm.trans hcut))
  have honly : OnlyNewlines ['1', '\r', '\n'] := by simp [OnlyNewlines, StartsPair, endsLine]
  exact ⟨_, hscan, by decide +kernel, (hshows "a.lox").2.mpr honly⟩

/-- **A report with two places.** The message says 1:2, and the header 2:1: the carriage return ends
a line of the report. -/
theorem report_shows_two_places :
    ∃ (settings : Settings) (e : ScanError), settings.scan "\r@" = .error e ∧
      (∀ bytes, e ≠ .sourceTooLarge bytes) ∧ e.message = "unexpected character '@' at 1:2" ∧
      e.position.line = 1 ∧ e.position.column = 2 ∧
      ShowsPlace (e.report "a.lox" "\r@") e.message "a.lox" 2 1 ∧
      ¬ ShowsPlace (e.report "a.lox" "\r@") e.message "a.lox" e.position.line
        e.position.column := by
  have hfault : FaultAt ['\r'] '@' [] (.unexpectedCharacter '@' ⟨⟨1, 2, 1⟩, ⟨1, 3, 2⟩⟩) :=
    .unexpectedCharacter (by decide +kernel)
  have he : (scan "\r@").map (List.map Token.piece) =
      .error (.unexpectedCharacter '@' ⟨⟨1, 2, 1⟩, ⟨1, 3, 2⟩⟩) := by
    decide +kernel
  have hscan : (⟨.text, true, false, "> ", false⟩ : Settings).scan "\r@" = .error _ :=
    Settings.scan_eq_error_iff.mpr (eq_error_of_map he)
  have hshows : ShowsPlace (ScanError.report _ "a.lox" "\r@") _ "a.lox" 2 1 :=
    hfault.showsPlace rfl "a.lox"
  refine ⟨_, _, hscan, nofun, by decide +kernel, rfl, rfl, hshows, ?_⟩
  intro hposition
  exact absurd (hshows.unique hposition).1 (by decide)

end LoxTokenizer
