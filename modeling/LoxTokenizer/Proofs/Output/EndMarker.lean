import LoxTokenizer.Proofs.Output.Lossless
import LoxTokenizer.Proofs.Scan.Places

/-!
# The marker of the end as an entry

A listing is its entries, laid out: a line for each, or the items of one pretty array. What the end
of the source adds to a listing is one entry behind all others. It is never hidden, since the marker
is no white space and no comment, and it is never mistaken for a token, since no lexeme has its kind.

* `Listing.entryText`, `Listing.layOut`: the entries of a listing and how they are put together.
* **`Listing.render_eq_layOut`**: a listing is its entries, laid out.
* `Token.EndsSource`: what the marker of the end of a source says.
* **`scanWithEof_appends_marker`**: a marked scan is the scan and the marker, and a marked listing
  is the listing and one entry.
-/

namespace LoxTokenizer

open Lexeme Token

namespace Listing

/-! ## Entries -/

/-- The text of the entry of a token. An item of an array stands one level in. -/
def entryText : OutputFormat → Token → String
  | .text, t => t.render
  | .json, t => String.ofList (t.toJson.pretty 1)
  | .debug, t => t.row

/-- Some entries, laid out: in brackets, with a comma after each entry but the last, or on lines
of their own. -/
def layOut : OutputFormat → List String → String
  | .json, [] => "[]\n"
  | .json, entry :: entries =>
    "[\n  " ++ entry ++ String.join (entries.map fun entry => ",\n  " ++ entry) ++ "\n]\n"
  | .text, entries | .debug, entries => String.join (entries.map fun entry => entry ++ "\n")

theorem prettyItems_one (tokens : List Token) :
    String.ofList (Json.prettyItems 1 (tokens.map Token.toJson)) =
      String.join ((tokens.map (entryText .json)).map fun entry => ",\n  " ++ entry) := by
  induction tokens with
  | nil => rfl
  | cons t tokens ih =>
    rw [List.map_cons, List.map_cons, List.map_cons, String.join_cons, ← ih, Json.prettyItems,
      String.ofList_append, String.ofList_append]
    rfl

/-- **A listing is its entries**, laid out. -/
theorem render_eq_layOut (format : OutputFormat) (tokens : List Token) :
    render format tokens = layOut format (tokens.map (entryText format)) := by
  unfold render
  cases format with
  | text => simp [pieces, layOut, entryText, Function.comp_def]
  | debug => simp [pieces, layOut, entryText, Function.comp_def]
  | json =>
    cases tokens with
    | nil => rfl
    | cons t tokens =>
      have hitems := congrArg String.toList (prettyItems_one tokens)
      rw [String.toList_ofList] at hitems
      apply String.toList_inj.mp
      simp only [pieces, Json.render, Json.pretty, layOut, List.map_cons, String.join_cons,
        String.join_nil, String.toList_append, String.toList_ofList, ← hitems, entryText]
      simp [Json.newLine]

/-- The marker is no trivia, so it is shown whatever is hidden. -/
theorem shown_append_of_eof {marker : Token} (h : marker.kind = .eof) (trivia : Bool)
    (tokens : List Token) : shown trivia (tokens ++ [marker]) = shown trivia tokens ++ [marker] := by
  have hmarker : (trivia || !marker.kind.isTrivia) = true := by
    rw [h]
    exact Bool.or_true trivia
  unfold shown
  rw [List.filter_append, List.filter_singleton, hmarker]
  rfl

end Listing

/-! ## The marker -/

/-- **What the marker of the end says** of its source: it has a kind of its own, its lexeme is
empty, and it stands behind all characters of the source. -/
structure Token.EndsSource (source : List Char) (t : Token) : Prop where
  kind : t.kind = .eof
  lexeme : t.lexeme = ""
  literal : t.literal = .lexeme ""
  offset : t.offset = Text.byteLength source
  endOffset : t.endOffset = Text.byteLength source
  line : t.line = 1 + source.count '\n'
  column : t.column = 1 + (Text.lastLine source).length

theorem Token.endsSource_eof (source : List Char) :
    (Token.eof (Position.start.after source)).EndsSource source where
  kind := rfl
  lexeme := rfl
  literal := rfl
  offset := Position.offset_start_after source
  endOffset := Position.offset_start_after source
  line := by
    show (Position.start.after source).line = _
    rw [Position.start_after]
    rfl
  column := by
    show (Position.start.after source).column = _
    rw [Position.start_after]
    rfl

/-- No lexeme has the kind of the marker. -/
theorem Lexeme.Spells.kind_ne_eof {kind : TokenKind} {lexeme : List Char}
    (h : Spells kind lexeme) : kind ≠ .eof := by
  cases h with
  | punctuation h =>
    unfold TokenKind.punctuation? at h
    split at h <;> cases h <;> decide
  | operator h => cases h <;> decide
  | operatorEqual h => cases h <;> decide
  | @word _ c rest hk _ _ =>
    have hword := wordKind_identifier_or_keyword (c :: rest)
    rw [hk] at hword
    rintro rfl
    exact absurd hword (by decide)
  | _ => decide

variable {source : String} {found : List Token}

theorem kind_ne_eof_of_scan (h : scan source = .ok found) : ∀ t ∈ found, t.kind ≠ .eof := by
  obtain ⟨-, hm, hp⟩ := scan_eq_ok_iff.mp h
  exact fun t ht => (spells_of_munch hm hp t ht).1.kind_ne_eof

/-! ## What is printed -/

namespace Settings

/-- The settings with the end of the source marked, or not. -/
def marking (s : Settings) (eof : Bool) : Settings :=
  { s with eof := eof }

/-- The whole listing that the settings print of a source. -/
def printed (s : Settings) (source : String) : Except ScanError String :=
  (s.scan source).map fun tokens => String.join (s.listing tokens)

theorem printed_of_scan {s : Settings} {tokens : List Token} (h : s.scan source = .ok tokens) :
    s.printed source = .ok (Listing.layOut s.format
      ((Listing.shown s.trivia tokens).map (Listing.entryText s.format))) := by
  unfold printed
  rw [h, ← Listing.render_eq_layOut]
  rfl

end Settings

/-- **The marker of the end is all that is added.** A marked scan fails exactly where the scan does,
with the same error. Where the scan finds tokens, none of which is a marker, the marked scan finds
them and one more, which marks the end of the source and is shown whatever is hidden. So whatever
the settings are, what is printed of the source with its end marked is what is printed without, and
one entry behind all others. -/
theorem scanWithEof_appends_marker (source : String) :
    (∀ e, scanWithEof source = .error e ↔ scan source = .error e) ∧
    ∀ found, scan source = .ok found → ∃ marker : Token,
      scanWithEof source = .ok (found ++ [marker]) ∧
      marker.EndsSource source.toList ∧
      (∀ t ∈ found, t.kind ≠ .eof) ∧
      (∀ trivia, Listing.shown trivia (found ++ [marker]) =
        Listing.shown trivia found ++ [marker]) ∧
      ∀ settings : Settings, ∃ entries : List String,
        entries = (Listing.shown settings.trivia found).map (Listing.entryText settings.format) ∧
        (settings.marking false).printed source = .ok (Listing.layOut settings.format entries) ∧
        (settings.marking true).printed source = .ok (Listing.layOut settings.format
          (entries ++ [Listing.entryText settings.format marker])) := by
  refine ⟨fun e => scanWithEof_eq_error_iff, fun found h => ?_⟩
  have hmarked := scanWithEof_eq_ok_iff.mpr ⟨found, h, rfl⟩
  have hends := Token.endsSource_eof source.toList
  have hshown := Listing.shown_append_of_eof hends.kind
  refine ⟨_, hmarked, hends, kind_ne_eof_of_scan h, fun trivia => hshown trivia found,
    fun settings => ⟨_, rfl, ?_, ?_⟩⟩
  · exact Settings.printed_of_scan (s := settings.marking false) h
  · have hprinted := Settings.printed_of_scan (s := settings.marking true) hmarked
    rw [hshown, List.map_append] at hprinted
    exact hprinted

/-- A comment with a two-byte character, a line feed and a numeral: hidden but for the numeral, and
printed as an array of one item, or of two. -/
theorem scanWithEof_appends_marker_hidden :
    ∃ found marker, scan "//é\n1" = .ok found ∧ scanWithEof "//é\n1" = .ok (found ++ [marker]) ∧
      (marker.line, marker.column, marker.offset) = (2, 2, 6) ∧
      ∃ entry, (⟨.json, false, false, "> ", false⟩ : Settings).printed "//é\n1" =
          .ok ("[\n  " ++ entry ++ "\n]\n") ∧
        (⟨.json, false, true, "> ", false⟩ : Settings).printed "//é\n1" =
          .ok ("[\n  " ++ entry ++ ",\n  " ++ Listing.entryText .json marker ++ "\n]\n") := by
  have hs : (scan "//é\n1").map (fun tokens => (Listing.shown false tokens).length) = .ok 1 := by
    decide +kernel
  obtain ⟨found, h, hlength⟩ := exists_of_map_eq_ok hs
  obtain ⟨t, ht⟩ := List.length_eq_one_iff.mp hlength
  obtain ⟨marker, hmarked, hends, -, -, hprinted⟩ := (scanWithEof_appends_marker _).2 found h
  obtain ⟨entries, rfl, hplain, hwithMarker⟩ := hprinted ⟨.json, false, false, "> ", false⟩
  dsimp only at hplain hwithMarker
  rw [ht] at hplain hwithMarker
  refine ⟨found, marker, h, hmarked, ?_, Listing.entryText .json t, ?_, ?_⟩
  · rw [hends.line, hends.column, hends.offset]
    decide
  · simpa [Settings.marking, Listing.layOut, String.append_assoc] using hplain
  · simpa [Settings.marking, Listing.layOut, String.append_assoc] using hwithMarker

end LoxTokenizer
