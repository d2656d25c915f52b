import LoxTokenizer.Proofs.Lexeme.Fault
import LoxTokenizer.Proofs.Scan.MaximalMunch
import Mathlib.Logic.Basic

/-!
# The error of a scan is the first one

A scan that fails has scanned everything up to the place of its error, and the text from there on
has one of the two faults. Conversely, where the text up to a place scans, and no comment is open
there, a fault at that place is the error of the scan. Nothing else makes a scan fail.

* `FaultAt before c rest e`: `e` is the error of the fault at `c`, behind `before`.
* **`scan_eq_error_iff_faultAt`**: a scan fails exactly where a text that scans is followed by a
  fault. The laws on longer sources rest on it, too.
* `byteLength_le_of_error`: a lexeme in the source ends before the error does start.
* **`scan_first_error`**: what an error says of its source, and what makes it.
-/

namespace LoxTokenizer

open Lexeme Token

/-- **The error of a fault** at `c`, with the text `before` it and the text `rest` behind it. -/
inductive FaultAt (before : List Char) : Char → List Char → ScanError → Prop where
  /-- A quote that no other quote follows; the span runs to the end of the text. -/
  | unterminatedString {rest : List Char} (h : '"' ∉ rest) :
      FaultAt before '"' rest (.unterminatedString
        ⟨Position.start.after before, Position.start.after (before ++ '"' :: rest)⟩)
  /-- A character that no lexeme starts with; the span covers it. -/
  | unexpectedCharacter {c : Char} {rest : List Char} (h : StartsNone c) :
      FaultAt before c rest (.unexpectedCharacter c
        ⟨Position.start.after before, Position.start.after (before ++ [c])⟩)

variable {before rest : List Char} {c : Char} {e : ScanError}

theorem first_eq_error_iff_faultAt :
    Token.first (Position.start.after before) c rest = .error e ↔ FaultAt before c rest e := by
  rw [first_eq_error_iff, recognize_eq_unterminatedString_iff, recognize_eq_unexpectedCharacter_iff]
  constructor
  · rintro (⟨⟨rfl, hno⟩, rfl⟩ | ⟨hc, rfl⟩)
    · rw [← Position.after_append]
      exact .unterminatedString hno
    · have hstop : (Position.start.after before).advance c =
          Position.start.after (before ++ [c]) := by
        rw [Position.after_append]
        rfl
      rw [hstop]
      exact .unexpectedCharacter hc
  · intro h
    cases h with
    | unterminatedString hno => exact Or.inl ⟨⟨rfl, hno⟩, by rw [Position.after_append]⟩
    | unexpectedCharacter hc =>
      refine Or.inr ⟨hc, ?_⟩
      rw [Position.after_append]
      rfl

namespace FaultAt

theorem exists_recognize (h : FaultAt before c rest e) :
    ∃ fault, recognize c rest = .error fault := by
  cases h with
  | unterminatedString hno => exact ⟨_, recognize_eq_unterminatedString_iff.mpr ⟨rfl, hno⟩⟩
  | unexpectedCharacter hc => exact ⟨_, recognize_eq_unexpectedCharacter_iff.mpr hc⟩

theorem separates (h : FaultAt before c rest e) : Separates c := by
  obtain ⟨fault, hr⟩ := h.exists_recognize
  exact separates_of_error hr

theorem start_eq (h : FaultAt before c rest e) : e.span.start = Position.start.after before := by
  cases h <;> rfl

theorem position_offset (h : FaultAt before c rest e) :
    e.position.offset = Text.byteLength before := by
  unfold ScanError.position
  rw [h.start_eq, Position.offset_start_after]

end FaultAt

/-! ## Where a scan fails -/

variable {source : String} {tokens : List Token}

/-- The last of the tokens, if there is one, is not a comment. -/
def NoCommentLast (tokens : List Token) : Prop :=
  ∀ t, tokens.getLast? = some t → t.kind ≠ .comment

theorem not_glue_iff_noCommentLast (hc : Separates c) :
    ¬ Glue (tokens.map piece) (c :: rest) ↔ NoCommentLast tokens := by
  rw [glue_iff_of_separates hc]
  constructor
  · intro h t ht hk
    exact h ⟨t.piece, by rw [List.getLast?_map, ht]; rfl, hk⟩
  · rintro h ⟨piece, hlast, hk⟩
    rw [List.getLast?_map, Option.map_eq_some_iff] at hlast
    obtain ⟨t, ht, rfl⟩ := hlast
    exact h t ht hk

/-- **A scan fails** exactly where a text that scans, without a comment at its end, is followed by
a fault. -/
theorem scan_eq_error_iff_faultAt (hle : Text.byteLength source.toList ≤ maxSourceLength) :
    scan source = .error e ↔ ∃ before c rest tokens, source.toList = before ++ c :: rest ∧
      scan (String.ofList before) = .ok tokens ∧ NoCommentLast tokens ∧
        FaultAt before c rest e := by
  rw [scan_eq_error_iff hle]
  constructor
  · rintro ⟨tokens, c, rest, hm, hp, hfirst⟩
    have hsource := hm.eq_append
    have hfault := first_eq_error_iff_faultAt.mp hfirst
    refine ⟨_, c, rest, tokens, hsource, scan_eq_ok_iff.mpr ⟨?_, ?_, hp⟩,
      (not_glue_iff_noCommentLast hfault.separates).mp hm.not_glue, hfault⟩
    · rw [hsource, Text.byteLength_append] at hle
      rw [String.toList_ofList]
      omega
    · rw [String.toList_ofList]
      exact hm.cut_all
  · rintro ⟨before, c, rest, tokens, hsource, hscan, hlast, hfault⟩
    obtain ⟨-, hm, hp⟩ := scan_eq_ok_iff.mp hscan
    rw [String.toList_ofList] at hm
    refine ⟨tokens, c, rest, ?_, hp, ?_⟩
    · rw [hsource]
      exact hm.extend ((not_glue_iff_noCommentLast hfault.separates).mpr hlast)
    · rw [← hm.eq_spelling]
      exact first_eq_error_iff_faultAt.mpr hfault

/-! ## Lexemes before the error -/

/-- A lexeme that stands in the source, behind text that scans and does not glue to it, ends before
the error starts: a munch takes it, and no munch goes past a fault. -/
theorem byteLength_le_of_error {lexeme behind : List Char} {kind : TokenKind}
    (hle : Text.byteLength source.toList ≤ maxSourceLength) (he : scan source = .error e)
    (hsource : source.toList = before ++ lexeme ++ behind)
    (hscan : scan (String.ofList before) = .ok tokens)
    (hg : ¬ Glue (tokens.map piece) (lexeme ++ behind))
    (hl : IsLongest kind lexeme (lexeme ++ behind)) :
    Text.byteLength (before ++ lexeme) ≤ e.position.offset := by
  obtain ⟨-, hm, -⟩ := scan_eq_ok_iff.mp hscan
  rw [String.toList_ofList] at hm
  obtain ⟨found, c, rest, hmunch, -, hfirst⟩ := (scan_eq_error_iff hle).mp he
  have hfault := first_eq_error_iff_faultAt.mp hfirst
  obtain ⟨fault, hr⟩ := hfault.exists_recognize
  have htaken : Munch source.toList (tokens.map piece ++ [(kind, lexeme)]) behind := by
    rw [hsource, List.append_assoc]
    exact (hm.extend hg).trans (.lexeme hl .done)
  obtain ⟨later, hpieces⟩ := htaken.isPrefix_of_stuck hmunch hr
  have hspell : spelling (tokens.map piece ++ [(kind, lexeme)]) = before ++ lexeme := by
    rw [spelling_append, ← hm.eq_spelling]
    simp
  rw [hfault.position_offset, ← hpieces, spelling_append, hspell,
    Text.byteLength_append (before ++ lexeme)]
  exact Nat.le_add_right _ _

/-- A string with both its quotes, or a comment up to the end of its line. -/
def CompleteBefore (lexeme behind : List Char) : Prop :=
  Spells .string lexeme ∨ Spells .comment lexeme ∧ ∀ c ∈ behind.head?, c = '\n'

theorem CompleteBefore.exists_isLongest {lexeme behind : List Char}
    (h : CompleteBefore lexeme behind) : ∃ kind, IsLongest kind lexeme (lexeme ++ behind) := by
  rcases h with hs | ⟨hs, hline⟩
  · exact ⟨_, (isLongest_append_iff hs).mpr not_extends_string⟩
  · refine ⟨_, (isLongest_append_iff hs).mpr ?_⟩
    rintro ⟨c, hc, hne⟩
    exact hne (hline c hc)

/-! ## The first error -/

/-- At byte `p` of the source is a quote that no other quote follows, and the error is that of an
unterminated string, from there to the end of the source. -/
def ReportsUnterminated (source : List Char) (p : Nat) (e : ScanError) : Prop :=
  ∃ before rest span, Text.splitAt? source p = some (before, '"' :: rest) ∧ '"' ∉ rest ∧
    e = .unterminatedString span ∧ span.start.offset = p ∧
      span.stop.offset = Text.byteLength source

/-- At byte `p` of the source is a character that no lexeme starts with, and the error is that of
this character and covers its bytes. -/
def ReportsUnexpected (source : List Char) (p : Nat) (e : ScanError) : Prop :=
  ∃ before c rest span, Text.splitAt? source p = some (before, c :: rest) ∧ StartsNone c ∧
    e = .unexpectedCharacter c span ∧ span.start.offset = p ∧ span.stop.offset = p + c.utf8Size

/-- The error of a fault reports it. -/
theorem FaultAt.reports (h : FaultAt before c rest e) :
    (c = '"' ∧ '"' ∉ rest ∧
      ReportsUnterminated (before ++ c :: rest) (Text.byteLength before) e) ∨
      (StartsNone c ∧ ReportsUnexpected (before ++ c :: rest) (Text.byteLength before) e) := by
  have hstart := Position.offset_start_after before
  have hsplit := Text.splitAt?_byteLength before (c :: rest)
  cases h with
  | unterminatedString hno =>
    exact Or.inl ⟨rfl, hno, before, rest, _, hsplit, hno, rfl, hstart,
      Position.offset_start_after (before ++ '"' :: rest)⟩
  | unexpectedCharacter hc =>
    refine Or.inr ⟨hc, before, c, rest, _, hsplit, hc, rfl, hstart, ?_⟩
    rw [Position.after_append, Position.after_cons, Position.after_nil, Position.offset_advance,
      hstart]

theorem not_reportsUnexpected_of_unterminated {text : List Char} {p : Nat}
    (h : ReportsUnterminated text p e) : ¬ ReportsUnexpected text p e := by
  rintro ⟨before', c', rest', span', -, -, heq, -⟩
  obtain ⟨before, rest, span, -, -, rfl, -⟩ := h
  cases heq

/-- **The first error.** Of a source within the size limit:

* where a scan fails, the error is at a character of the source, up to which the source scans; it
  is one of the two faults there, and not both; it is never that of a numeral; and no complete
  string or comment, where one can start, reaches up to it;
* where the source up to a character scans, with no comment last, and has a fault at the character,
  the scan fails with the error of that fault. -/
theorem scan_first_error (source : String)
    (hle : Text.byteLength source.toList ≤ maxSourceLength) :
    (∀ e, scan source = .error e →
      (∃ before c rest tokens,
        Text.splitAt? source.toList e.position.offset = some (before, c :: rest) ∧
          scan (String.ofList before) = .ok tokens) ∧
      Xor (ReportsUnterminated source.toList e.position.offset e)
        (ReportsUnexpected source.toList e.position.offset e) ∧
      (∀ lexeme span, e ≠ .invalidNumber lexeme span) ∧
      ∀ before lexeme behind tokens, source.toList = before ++ lexeme ++ behind →
        scan (String.ofList before) = .ok tokens → ¬ Glue (tokens.map piece) (lexeme ++ behind) →
          CompleteBefore lexeme behind →
            Text.byteLength (before ++ lexeme) ≤ e.position.offset) ∧
    ∀ p before c rest tokens, Text.splitAt? source.toList p = some (before, c :: rest) →
      scan (String.ofList before) = .ok tokens → NoCommentLast tokens →
        (c = '"' ∧ '"' ∉ rest →
          ∃ e, scan source = .error e ∧ ReportsUnterminated source.toList p e) ∧
        (StartsNone c →
          ∃ e, scan source = .error e ∧ ReportsUnexpected source.toList p e) := by
  constructor
  · intro e he
    obtain ⟨before, c, rest, tokens, hsource, hscan, -, hfault⟩ :=
      (scan_eq_error_iff_faultAt hle).mp he
    refine ⟨⟨before, c, rest, tokens, ?_, hscan⟩, ?_, ?_, ?_⟩
    · rw [hsource, hfault.position_offset]
      exact Text.splitAt?_byteLength before (c :: rest)
    · rw [hsource, hfault.position_offset]
      rcases hfault.reports with ⟨-, -, h⟩ | ⟨-, h⟩
      · exact Or.inl ⟨h, not_reportsUnexpected_of_unterminated h⟩
      · exact Or.inr ⟨h, fun h' => not_reportsUnexpected_of_unterminated h' h⟩
    · rintro lexeme span rfl
      cases hfault
    · intro before' lexeme behind tokens' hsource' hscan' hg hcomplete
      obtain ⟨kind, hl⟩ := hcomplete.exists_isLongest
      exact byteLength_le_of_error hle he hsource' hscan' hg hl
  · intro p before c rest tokens hsplit hscan hlast
    obtain ⟨hsource, rfl⟩ := Text.append_of_splitAt? hsplit
    have hfails : ∀ e, FaultAt before c rest e → scan source = .error e := fun e hfault =>
      (scan_eq_error_iff_faultAt hle).mpr ⟨before, c, rest, tokens, hsource, hscan, hlast, hfault⟩
    rw [hsource]
    constructor
    · rintro ⟨rfl, hno⟩
      have hfault : FaultAt before '"' rest _ := .unterminatedString hno
      refine ⟨_, hfails _ hfault, ?_⟩
      rcases hfault.reports with ⟨-, -, h⟩ | ⟨hc, -⟩
      · exact h
      · exact absurd (by simp) hc.1
    · intro hc
      have hfault : FaultAt before c rest _ := .unexpectedCharacter hc
      refine ⟨_, hfails _ hfault, ?_⟩
      rcases hfault.reports with ⟨rfl, -, -⟩ | ⟨-, h⟩
      · exact absurd (by simp) hc.1
      · exact h

/-- A letter that starts no word, behind a string and a comment that hold such characters; and an
open string behind a numeral and a point. -/
theorem scan_first_error_letter :
    (∃ e, scan "\"@\"//#\nλ!" = .error e ∧ ReportsUnexpected "\"@\"//#\nλ!".toList 7 e ∧
      Text.byteLength "\"@\"".toList ≤ e.position.offset) ∧
      ∃ e, scan "1.\"x" = .error e ∧ ReportsUnterminated "1.\"x".toList 2 e := by
  constructor
  · have hle : Text.byteLength "\"@\"//#\nλ!".toList ≤ maxSourceLength := by decide
    have he : (scan "\"@\"//#\nλ!").map (List.map piece) =
        .error (.unexpectedCharacter 'λ' ⟨⟨2, 1, 7⟩, ⟨2, 2, 9⟩⟩) := by
      decide +kernel
    have hs := eq_error_of_map he
    obtain ⟨-, hreports, -, hcomplete⟩ := (scan_first_error _ hle).1 _ hs
    have hempty : scan (String.ofList []) = .ok [] :=
      scan_eq_ok_iff.mpr ⟨by decide, .done, trivial⟩
    have hbody : ∀ c ∈ ['@'], c ≠ '"' := by simp
    have hstring : CompleteBefore "\"@\"".toList "//#\nλ!".toList := Or.inl (.string hbody)
    have hsource : "\"@\"//#\nλ!".toList = [] ++ "\"@\"".toList ++ "//#\nλ!".toList := by decide
    refine ⟨_, hs, ?_, hcomplete _ _ _ _ hsource hempty Munch.done.not_glue hstring⟩
    rcases hreports with ⟨h, -⟩ | ⟨h, -⟩
    · obtain ⟨before, rest, span, -, -, heq, -⟩ := h
      cases heq
    · exact h
  · have hle : Text.byteLength "1.\"x".toList ≤ maxSourceLength := by decide
    have hs : (scan "1.").map (List.map Token.kind) = .ok [.number, .dot] := by decide +kernel
    obtain ⟨tokens, hscan, hkinds⟩ := exists_of_map_eq_ok hs
    have hlast : NoCommentLast tokens := by
      intro t ht hk
      have hkind : (tokens.map Token.kind).getLast? = some t.kind := by
        rw [List.getLast?_map, ht]
        rfl
      rw [hkinds, hk] at hkind
      cases hkind
    exact ((scan_first_error _ hle).2 2 "1.".toList '"' ['x'] tokens rfl hscan hlast).1
      ⟨rfl, by decide⟩

end LoxTokenizer
