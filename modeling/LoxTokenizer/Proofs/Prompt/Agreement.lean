import LoxTokenizer.Proofs.Lexeme.LineEnding
import LoxTokenizer.Proofs.Prompt.Conversation
import LoxTokenizer.Proofs.Scan.Tiling

/-!
# The prompt agrees with a file

A program whose lines scan one by one is listed in the same words at the prompt, which scans each
line alone and without its ending, and from a file, which is scanned as a whole. Positions differ
between the two, and so do white space and comments, where the endings of lines go. A listing in
words that hides these does not show either.

* `wording`: what a listing in words says of a token is decided by its kind and its lexeme.
* `exists_munch_of_lines`: a text is munched along its lines, if these can be munched without
  their endings.
* **`prompt_agrees_with_file`**: the output of the prompt is that of the file and a line feed.
-/

namespace LoxTokenizer

open Lexeme Token

/-! ## What a listing in words says -/

/-- What a listing in words says of a kind and a lexeme. -/
def wording (piece : TokenKind × List Char) : String :=
  piece.1.name ++ " " ++ Text.quoted (String.ofList piece.2) ++ " " ++
    ((Literal.ofLexeme? piece.1 piece.2).map Literal.render).getD ""

/-- What a listing in words says of all pieces but white space and comments. -/
def wordings (pieces : List (TokenKind × List Char)) : List UInt8 :=
  (significant pieces).flatMap fun piece => utf8 (wording piece ++ "\n")

variable {pieces more : List (TokenKind × List Char)} {tokens : List Token} {place : Position}

theorem wordings_append : wordings (pieces ++ more) = wordings pieces ++ wordings more := by
  simp [wordings]

theorem wordings_congr (h : significant pieces = significant more) :
    wordings pieces = wordings more :=
  congrArg (List.flatMap fun piece => utf8 (wording piece ++ "\n")) h

theorem Token.IsAt.render_eq {t : Token} (h : t.IsAt place) : t.render = wording t.piece := by
  simp [Token.render, wording, piece, h.literal]

/-- **A listing in words** is decided by the pieces. -/
theorem utf8_render_of_placed (h : Placed place tokens) :
    utf8 (Listing.render .text (Listing.shown false tokens)) = wordings (tokens.map piece) := by
  induction tokens generalizing place with
  | nil => exact utf8_empty
  | cons t tokens ih =>
    have hrest := ih h.2
    have hpiece : t.piece.1 = t.kind := rfl
    unfold Listing.render Listing.pieces at hrest ⊢
    unfold Listing.shown wordings significant at hrest ⊢
    rw [utf8_join, List.flatMap_map] at hrest ⊢
    cases htrivia : t.kind.isTrivia with
    | true => simpa [hpiece, htrivia] using hrest
    | false => simpa [hpiece, htrivia, h.1.render_eq] using hrest

/-! ## The endings of lines -/

namespace Prompt

theorem toList_trimEnd (line : List Char) : (trimEnd (String.ofList line)).toList =
    (line.reverse.dropWhile fun c => c == '\n' || c == '\r').reverse := by
  simp [trimEnd]

/-- A line is its source and an ending. -/
theorem exists_ending (line : List Char) : ∃ ending, (∀ c ∈ ending, c = '\n' ∨ c = '\r') ∧
    line = (trimEnd (String.ofList line)).toList ++ ending := by
  refine ⟨(line.reverse.takeWhile fun c => c == '\n' || c == '\r').reverse, fun c hc => ?_, ?_⟩
  · have hmem := List.all_eq_true.mp List.all_takeWhile c (List.mem_reverse.mp hc)
    simpa using hmem
  · rw [toList_trimEnd, ← List.reverse_append, List.takeWhile_append_dropWhile,
      List.reverse_reverse]

/-- The line feed of a line is not in its source. -/
theorem trimEnd_concat_newline (body : List Char) :
    trimEnd (String.ofList (body ++ ['\n'])) = trimEnd (String.ofList body) := by
  simp [trimEnd]

end Prompt

open Prompt

/-- A line is munched if its source is. -/
theorem exists_munch_of_source {line : List Char}
    (h : Munch (trimEnd (String.ofList line)).toList pieces []) :
    ∃ more, Munch line more [] ∧ significant more = significant pieces := by
  obtain ⟨ending, hending, hline⟩ := exists_ending line
  rw [hline]
  exact h.ending hending

/-- **A text is munched along its lines.** Their endings add no piece that carries a meaning. -/
theorem exists_munch_of_lines {text : List Char} {lines : List (List Char)}
    {said : List Char → List UInt8} (hcut : CutAfter '\n' text lines)
    (h : ∀ line ∈ lines, ∃ pieces,
      Munch (trimEnd (String.ofList line)).toList pieces [] ∧ wordings pieces = said line) :
    ∃ pieces, Munch text pieces [] ∧ wordings pieces = lines.flatMap said := by
  -- Each line but the last ends with a line feed, and nothing behind it glues to that.
  induction hcut with
  | nil => exact ⟨[], .done, rfl⟩
  | @last line _ _ =>
    obtain ⟨pieces, hm, hsaid⟩ := h line (by simp)
    obtain ⟨more, hmore, hsame⟩ := exists_munch_of_source hm
    exact ⟨more, hmore, by simpa using (wordings_congr hsame).trans hsaid⟩
  | @cons body rest lines _ _ ih =>
    obtain ⟨hline, hlines⟩ := List.forall_mem_cons.mp h
    obtain ⟨pieces, hm, hsaid⟩ := hline
    obtain ⟨behind, hbehind, hsaid'⟩ := ih hlines
    rw [trimEnd_concat_newline] at hm
    obtain ⟨more, hmore, hsame⟩ := exists_munch_of_source hm
    have hfirst : Munch (body ++ ['\n'] ++ rest) (more ++ [(.newline, ['\n'])]) rest :=
      hmore.newline.extend not_glue_of_newline
    rw [List.append_assoc, List.singleton_append] at hfirst
    refine ⟨_, hfirst.trans hbehind, ?_⟩
    · rw [wordings_append, wordings_congr (significant_concat_trivia rfl), wordings_congr hsame,
        hsaid, hsaid', List.flatMap_cons]

/-! ## The two runs -/

theorem length_utf8 (text : String) : (utf8 text).length = Text.byteLength text.toList :=
  Text.utf8ByteSize_eq_byteLength text

theorem isText_utf8 (line : String) : IsText (utf8 line) := by
  simp [IsText, source?, decodeUtf8?_utf8]

variable {settings : Settings}

theorem scan_eq_of_no_eof (h : settings.eof = false) (source : String) :
    settings.scan source = scan source := by
  simp [Settings.scan, h]

/-- A listing in words without white space, comments and a mark of the end. -/
theorem utf8_listing_of_scan {source : String} (hformat : settings.format = .text)
    (htrivia : settings.trivia = false) (h : scan source = .ok tokens) :
    utf8 (String.join (settings.listing tokens)) = wordings (tokens.map piece) := by
  have hlisting := utf8_render_of_placed (scan_eq_ok_iff.mp h).2.2
  rw [← hformat, ← htrivia] at hlisting
  exact hlisting

/-- What the prompt says in answer to a line that scans. -/
theorem answer_of_scan {line : String} (h : settings.scan (trimEnd line) = .ok tokens) :
    answer settings (utf8 line) = utf8 (String.join (settings.listing tokens)) := by
  simp only [answer, source?, decodeUtf8?_utf8, Option.map_some, h]
  rfl

/-- **The prompt agrees with a file.** Listed in words, without white space, comments and a mark of
the end, and with an empty prompt, a text within the size limit whose lines scan one by one is
listed from a file and at the prompt, and the output of the prompt is that of the file with one more
line feed. -/
theorem prompt_agrees_with_file {disk : Disk} {file : Path} {text : String}
    {lines : List (List Char)} (hformat : settings.format = .text)
    (htrivia : settings.trivia = false) (heof : settings.eof = false)
    (hprompt : settings.prompt = "") (hread : disk.read file = .ok (utf8 text))
    (hle : (utf8 text).length ≤ maxSourceLength) (hcut : CutAfter '\n' text.toList lines)
    (hlines : ∀ line ∈ lines, ∃ tokens, scan (trimEnd (String.ofList line)) = .ok tokens) :
    (FileRun.run disk settings .unlimited file).status.code = 0 ∧
      (Prompt.run settings .unlimited (utf8 text)).status.code = 0 ∧
      (Prompt.run settings .unlimited (utf8 text)).output =
        (FileRun.run disk settings .unlimited file).output ++ utf8 "\n" := by
  have hsaid : ∀ line ∈ lines, ∃ pieces, Munch (trimEnd (String.ofList line)).toList pieces [] ∧
      wordings pieces = answer settings (utf8 (String.ofList line)) := by
    intro line hline
    obtain ⟨tokens, hscan⟩ := hlines line hline
    refine ⟨_, munch_of_scan hscan, ?_⟩
    rw [answer_of_scan ((scan_eq_of_no_eof heof _).trans hscan),
      utf8_listing_of_scan hformat htrivia hscan]
  obtain ⟨pieces, hm, hall⟩ := exists_munch_of_lines hcut hsaid
  rw [length_utf8] at hle
  obtain ⟨tokens, hscan, rfl⟩ := exists_scan_of_munch hle hm
  have hdisk : disk.readText file = .ok text := by
    simp [Disk.readText, hread, decodeUtf8?_utf8]
  have hbytes : Prompt.lines (utf8 text) = lines.map fun line => utf8 (String.ofList line) := by
    have hutf8 := cutAfter_iff.mp hcut.utf8
    rw [String.ofList_toList] at hutf8
    exact hutf8.symm
  have htext : ∀ line ∈ Prompt.lines (utf8 text), IsText line := by
    rw [hbytes]
    exact List.forall_mem_map.mpr fun line _ => isText_utf8 _
  have hspoken : spoken settings (Prompt.lines (utf8 text)) = wordings (tokens.map piece) := by
    rw [hbytes, hall]
    simp [spoken, hprompt, List.flatMap_map]
  rw [FileRun.run_unlimited hdisk ((scan_eq_of_no_eof heof text).trans hscan),
    run_of_isText (s := .unlimited) htext (Sink.hasRoom_of_unbounded rfl)
      (by simp [Sink.unlimited])]
  refine ⟨rfl, rfl, ?_⟩
  dsimp only
  rw [utf8_listing_of_scan hformat htrivia hscan, hspoken, hprompt, utf8_newline]
  simp [Sink.bytes, Sink.unlimited]

/-- A comment before a carriage return, a string, and an empty line. -/
theorem prompt_agrees_with_file_lines :
    (Prompt.run ⟨.text, false, false, "", false⟩ .unlimited
      (utf8 "// é\r\n\"a\"+1\r\n\n")).output =
    (FileRun.run ⟨fun _ => .ok (utf8 "// é\r\n\"a\"+1\r\n\n"), fun _ => true, some, .ofText "/"⟩
      ⟨.text, false, false, "", false⟩ .unlimited (.ofText "main.lox")).output ++ utf8 "\n" := by
  have hcut : CutAfter '\n' "// é\r\n\"a\"+1\r\n\n".toList
      ["// é\r\n".toList, "\"a\"+1\r\n".toList, "\n".toList] :=
    .of_bodies ["// é\r".toList, "\"a\"+1\r".toList, []] (by decide)
  have hlines : ∀ line ∈ ["// é\r\n".toList, "\"a\"+1\r\n".toList, "\n".toList],
      (scan (trimEnd (String.ofList line))).toOption.isSome = true := by
    decide +kernel
  refine (prompt_agrees_with_file rfl rfl rfl rfl rfl (by decide +kernel) hcut ?_).2.2
  intro line hline
  have hscan := hlines line hline
  cases hs : scan (trimEnd (String.ofList line)) with
  | ok tokens => exact ⟨tokens, rfl⟩
  | error e =>
    rw [hs] at hscan
    cases hscan

end LoxTokenizer
