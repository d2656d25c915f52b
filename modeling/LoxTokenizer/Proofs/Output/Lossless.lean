import LoxTokenizer.Proofs.Output.Entry
import LoxTokenizer.Proofs.Prompt.Conversation
import LoxTokenizer.Proofs.Scan.EndMarker
import LoxTokenizer.Proofs.Scan.MaximalMunch
import LoxTokenizer.Proofs.Scan.Tiling

/-!
# Listings that lose nothing

A listing in words or in columns is decoded from its bytes: they are cut into lines, and each line
is read back. With white space and comments shown the lexemes that are read back make up the source
again, so that no two sources have the same listing.

* `decode?`: the decoder.
* `lines_render`: a listing has one line for each token that it shows.
* **`decode?_render`**: it is decoded.
* `join_lexemes_of_scan`: the lexemes of a scan are its source.
* **`listing_lossless`**: the law for the tokens of a source.
-/

namespace LoxTokenizer.Listing

open Prompt (lineFeed)

/-! ## The decoder -/

/-- What a listing in some format says of a token. -/
def entry (format : OutputFormat) (t : Token) : Entry where
  place := if format = .debug then some (t.line, t.column) else none
  kind := t.kind
  lexeme := t.lexeme

/-- Reads the bytes of a line. -/
def readBytes? (format : OutputFormat) (line : List UInt8) : Option Entry :=
  (decodeUtf8? line).bind fun text => readLine? format text.toList

/-- **The decoder** of a listing: what its lines say, if all of them can be read. -/
def decode? (format : OutputFormat) (output : List UInt8) : Option (List Entry) :=
  (Prompt.lines output).mapM (readBytes? format)

/-! ## The lines of a listing -/

/-- The line of a token. A JSON listing has none. -/
def lineOf : OutputFormat → Token → String
  | .text, t => t.render
  | .debug, t => t.row
  | .json, _ => ""

variable {format : OutputFormat} {tokens : List Token}

theorem pieces_eq_map (hformat : format ≠ .json) (tokens : List Token) :
    pieces format tokens = tokens.map fun t => lineOf format t ++ "\n" := by
  cases format with
  | json => exact absurd rfl hformat
  | _ => rfl

/-- No lexeme and no value puts a line feed into a line. -/
theorem lineFeed_not_mem_lineOf (format : OutputFormat) (t : Token) :
    lineFeed ∉ utf8 (lineOf format t) := by
  have hline : '\n' ∉ (lineOf format t).toList := by
    cases format with
    | text => exact newline_not_mem_render t
    | json => exact List.not_mem_nil
    | debug => exact newline_not_mem_row t
  have hbytes := lineFeed_not_mem_utf8 hline
  rwa [String.ofList_toList] at hbytes

theorem readLine?_lineOf (hformat : format ≠ .json) (t : Token) (behind : List Char) :
    readLine? format ((lineOf format t).toList ++ behind) = some (entry format t) := by
  cases format with
  | text => exact readLine?_render t behind
  | json => exact absurd rfl hformat
  | debug => exact readLine?_row t behind

/-- **One line for each token.** -/
theorem lines_render (hformat : format ≠ .json) (tokens : List Token) :
    Prompt.lines (utf8 (render format tokens)) =
      tokens.map fun t => utf8 (lineOf format t) ++ [lineFeed] := by
  have hbodies : ∀ body ∈ tokens.map fun t => utf8 (lineOf format t), lineFeed ∉ body :=
    List.forall_mem_map.mpr fun t _ => lineFeed_not_mem_lineOf format t
  have hcut := CutAfter.of_bodies _ hbodies
  rw [List.map_map] at hcut
  have hall : utf8 (render format tokens) =
      (tokens.map fun t => utf8 (lineOf format t) ++ [lineFeed]).flatten := by
    unfold render
    rw [pieces_eq_map hformat, utf8_join, List.flatMap_map]
    simp only [utf8_append, utf8_newline]
    rfl
  rw [hall]
  exact (Prompt.cutAfter_iff.mp hcut).symm

/-! ## What is decoded -/

theorem readBytes?_lineOf (hformat : format ≠ .json) (t : Token) :
    readBytes? format (utf8 (lineOf format t) ++ [lineFeed]) = some (entry format t) := by
  unfold readBytes?
  rw [← utf8_newline, ← utf8_append, decodeUtf8?_utf8, Option.bind_some, String.toList_append,
    readLine?_lineOf hformat]

/-- **A listing is decoded.** -/
theorem decode?_render (hformat : format ≠ .json) (tokens : List Token) :
    decode? format (utf8 (render format tokens)) = some (tokens.map (entry format)) := by
  unfold decode?
  rw [lines_render hformat]
  induction tokens with
  | nil => rfl
  | cons t tokens ih => simp [readBytes?_lineOf hformat, ih]

/-! ## The listing of a source -/

theorem join_lexemes_of_scan_plain {source : String} (h : scan source = .ok tokens) :
    String.join (tokens.map Token.lexeme) = source := by
  apply String.toList_inj.mp
  rw [← Token.spelling_map_piece, ← (munch_of_scan h).eq_spelling]

/-- The lexemes of a scan are its source. The marker of the end has none. -/
theorem join_lexemes_of_scan {settings : Settings} {source : String}
    (h : settings.scan source = .ok tokens) : String.join (tokens.map Token.lexeme) = source := by
  unfold Settings.scan at h
  split at h
  · obtain ⟨found, hfound, rfl⟩ := scanWithEof_eq_ok_iff.mp h
    have hsource := join_lexemes_of_scan_plain hfound
    simpa [Token.eof] using hsource
  · exact join_lexemes_of_scan_plain h

/-- What is decoded from a listing that shows all tokens makes up the source. -/
theorem join_decode?_of_scan {settings : Settings} {source : String}
    (hformat : settings.format ≠ .json) (htrivia : settings.trivia = true)
    (h : settings.scan source = .ok tokens) :
    (decode? settings.format (utf8 (String.join (settings.listing tokens)))).map
      (fun entries => String.join (entries.map Entry.lexeme)) = some source := by
  have hdecoded := decode?_render hformat (shown settings.trivia tokens)
  have hall : shown true tokens = tokens := by simp [shown]
  unfold render at hdecoded
  unfold Settings.listing
  rw [hdecoded, htrivia, hall, Option.map_some, List.map_map]
  exact congrArg some (join_lexemes_of_scan h)

/-- **Listings in words and in columns lose nothing.** What is written has one line for each token
that is shown, with a line feed at its end and no other. It is decoded to the kind and the lexeme of
each of these tokens, and in columns to its line and column as well, whatever their size. If white
space and comments are shown the decoded lexemes make up the source, and no other source is written
as the same bytes. -/
theorem listing_lossless {settings : Settings} {source : String}
    (hformat : settings.format ≠ .json) (h : settings.scan source = .ok tokens) :
    ∃ output : Sink, Sink.unlimited.writeAll (settings.listing tokens) = .ok output ∧
      ((Prompt.lines output.bytes).length = (shown settings.trivia tokens).length ∧
        ∀ line ∈ Prompt.lines output.bytes, ∃ body, lineFeed ∉ body ∧ line = body ++ [lineFeed]) ∧
      decode? settings.format output.bytes =
        some ((shown settings.trivia tokens).map (entry settings.format)) ∧
      (settings.trivia = true →
        (decode? settings.format output.bytes).map
            (fun entries => String.join (entries.map Entry.lexeme)) = some source ∧
          ∀ (other : String) (more : List Token) (same : Sink),
            settings.scan other = .ok more →
            Sink.unlimited.writeAll (settings.listing more) = .ok same →
            same.bytes = output.bytes → other = source) := by
  obtain ⟨output, hbytes, hwritten⟩ := Sink.writeAll_unlimited (settings.listing tokens)
  refine ⟨output, hwritten, ?_, ?_, fun htrivia => ⟨?_, ?_⟩⟩
  · have hlines := lines_render hformat (shown settings.trivia tokens)
    rw [hbytes, Settings.listing, ← render, hlines]
    refine ⟨List.length_map _, List.forall_mem_map.mpr fun t _ => ⟨_, ?_, rfl⟩⟩
    exact lineFeed_not_mem_lineOf settings.format t
  · rw [hbytes, Settings.listing, ← render, decode?_render hformat]
  · rw [hbytes, join_decode?_of_scan hformat htrivia h]
  · intro other more same hother hsame heq
    obtain ⟨output', hbytes', hwritten'⟩ := Sink.writeAll_unlimited (settings.listing more)
    obtain rfl : output' = same := Except.ok.inj (hwritten'.symm.trans hsame)
    have hdecoded := join_decode?_of_scan hformat htrivia hother
    rw [← hbytes', heq, hbytes, join_decode?_of_scan hformat htrivia h] at hdecoded
    exact (Option.some.inj hdecoded).symm

/-- A string that holds a line feed and what looks like an escape, and a comment with a quote. -/
theorem listing_lossless_escape :
    ∃ tokens output, scan "\"\\n\n\\u\x7b41\x7d\" // \"" = .ok tokens ∧
      Sink.unlimited.writeAll ((⟨.debug, true, false, "> ", false⟩ : Settings).listing tokens) =
        .ok output ∧
      (decode? .debug output.bytes).map (fun entries => String.join (entries.map Entry.lexeme)) =
        some "\"\\n\n\\u\x7b41\x7d\" // \"" := by
  have hs : (scan "\"\\n\n\\u\x7b41\x7d\" // \"").map List.length = .ok 3 := by decide +kernel
  obtain ⟨tokens, h, -⟩ := exists_of_map_eq_ok hs
  have hformat : (⟨.debug, true, false, "> ", false⟩ : Settings).format ≠ .json := by decide
  have hsettings : (⟨.debug, true, false, "> ", false⟩ : Settings).scan
      "\"\\n\n\\u\x7b41\x7d\" // \"" = .ok tokens := h
  obtain ⟨output, hwritten, -, -, hsource⟩ := listing_lossless hformat hsettings
  exact ⟨tokens, output, h, hwritten, (hsource rfl).1⟩

end LoxTokenizer.Listing
