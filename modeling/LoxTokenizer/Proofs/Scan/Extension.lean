import LoxTokenizer.Proofs.Scan.FirstError
import LoxTokenizer.Proofs.Scan.Tiling

/-!
# Errors and longer sources

What an error says of a source, it says of every source that goes on in the same way. The text up to
an unexpected character decides alone that it is unexpected. An open string stays open as long as no
quote follows, and one quote closes it, whatever its text is.

* `length_le_of_scan_error`: only a source within the size limit has an error that points into it.
* `scan_of_unexpected_append`: an unexpected character is the error of every source that starts in
  the same way.
* `scan_of_unterminated_append`: an open string stays open without a quote behind it.
* `scan_close_quote`: a quote behind an open string makes a token of it.
* **`scan_error_extension`**: the three together, told by the spans of the errors.
-/

namespace LoxTokenizer

open Lexeme Token

variable {source : String} {tokens : List Token} {before rest : List Char} {c : Char} {span : Span}

theorem length_le_of_scan_error {e : ScanError} (h : scan source = .error e)
    (hs : ∀ bytes, e ≠ .sourceTooLarge bytes) :
    Text.byteLength source.toList ≤ maxSourceLength := by
  by_contra hlong
  rw [scan_of_large (Nat.not_le.mp hlong)] at h
  cases h
  exact hs _ rfl

/-! ## Behind an unexpected character -/

/-- An unexpected character behind text that scans, whatever follows it. -/
theorem scan_of_unexpected_append (hc : StartsNone c)
    (hscan : scan (String.ofList before) = .ok tokens) (hlast : NoCommentLast tokens) (x : String)
    (hle : Text.byteLength (before ++ [c]) + Text.byteLength x.toList ≤ maxSourceLength) :
    scan (String.ofList (before ++ [c]) ++ x) = .error (.unexpectedCharacter c
      ⟨Position.start.after before, Position.start.after (before ++ [c])⟩) := by
  have hsource : (String.ofList (before ++ [c]) ++ x).toList = before ++ c :: x.toList := by
    rw [String.toList_append, String.toList_ofList, List.append_assoc, List.singleton_append]
  refine (scan_eq_error_iff_faultAt ?_).mpr
    ⟨before, c, x.toList, tokens, hsource, hscan, hlast, .unexpectedCharacter hc⟩
  rwa [String.toList_append, String.toList_ofList, Text.byteLength_append]

/-! ## Behind an open string -/

theorem scan_of_unterminated_append (hno : '"' ∉ rest)
    (hsource : source.toList = before ++ '"' :: rest)
    (hscan : scan (String.ofList before) = .ok tokens) (hlast : NoCommentLast tokens) {x : String}
    (hx : '"' ∉ x.toList)
    (hle : Text.byteLength source.toList + Text.byteLength x.toList ≤ maxSourceLength) :
    scan (source ++ x) = .error (.unterminatedString ⟨Position.start.after before,
      Position.start.after (before ++ '"' :: (rest ++ x.toList))⟩) := by
  have hlonger : (source ++ x).toList = before ++ '"' :: (rest ++ x.toList) := by
    rw [String.toList_append, hsource, List.append_assoc, List.cons_append]
  have hopen : '"' ∉ rest ++ x.toList := by
    rw [List.mem_append, not_or]
    exact ⟨hno, hx⟩
  refine (scan_eq_error_iff_faultAt ?_).mpr
    ⟨before, '"', rest ++ x.toList, tokens, hlonger, hscan, hlast, .unterminatedString hopen⟩
  rwa [String.toList_append, Text.byteLength_append]

/-- The token of a string with this text between its quotes, in this span. -/
def Token.ofString (body : List Char) (span : Span) : Token :=
  ⟨.string, String.ofList ('"' :: (body ++ ['"'])), .text (String.ofList body), span⟩

theorem Token.piece_ofString (body : List Char) (span : Span) :
    (Token.ofString body span).piece = (.string, '"' :: (body ++ ['"'])) := by
  unfold Token.piece Token.ofString
  rw [String.toList_ofList]

theorem Token.isAt_ofString (place : Position) (body : List Char) :
    (Token.ofString body ⟨place, place.after ('"' :: (body ++ ['"']))⟩).IsAt place where
  span := by
    unfold Token.ofString
    rw [String.toList_ofList]
  literal := by
    have hbody : (('"' :: (body ++ ['"'])).drop 1).dropLast = body := by simp
    show Literal.ofLexeme? .string (String.ofList _).toList = some (.text (String.ofList body))
    rw [String.toList_ofList]
    exact congrArg (fun text => some (Literal.text (String.ofList text))) hbody

/-- **A quote behind an open string** closes it, and what was its text is the text of a token. -/
theorem scan_close_quote (hno : '"' ∉ rest) (hsource : source.toList = before ++ '"' :: rest)
    (hscan : scan (String.ofList before) = .ok tokens) (hlast : NoCommentLast tokens)
    (hle : Text.byteLength source.toList < maxSourceLength) :
    scan (source ++ "\"") = .ok (tokens ++ [Token.ofString rest
      ⟨Position.start.after before, (Position.start.after source.toList).advance '"'⟩]) := by
  obtain ⟨-, hm, hp⟩ := scan_eq_ok_iff.mp hscan
  rw [String.toList_ofList] at hm
  set lexeme := '"' :: (rest ++ ['"']) with hlexeme
  have hbody : ∀ d ∈ rest, d ≠ '"' := by
    rintro d hd rfl
    exact hno hd
  have hlonger : (source ++ "\"").toList = before ++ lexeme := by
    rw [String.toList_append, hsource, List.append_assoc]
    rfl
  have hspan : (Position.start.after source.toList).advance '"' =
      (Position.start.after before).after lexeme := by
    rw [← Position.after_append, ← hlonger, String.toList_append, Position.after_append]
    rfl
  refine scan_eq_ok_iff.mpr ⟨?_, ?_, ?_⟩
  · rw [String.toList_append, Text.byteLength_append]
    exact hle
  · have hg : ¬ Glue (tokens.map piece) lexeme :=
      (not_glue_iff_noCommentLast separates_quote).mpr hlast
    have hlongest : IsLongest .string lexeme (lexeme ++ []) :=
      (isLongest_append_iff (.string hbody)).mpr not_extends_string
    have hclosed : Munch lexeme [(.string, lexeme)] [] := by
      simpa using Munch.lexeme hlongest .done
    rw [hlonger, List.map_append, List.map_singleton, piece_ofString]
    exact (hm.extend hg).trans hclosed
  · rw [placed_append, ← hm.eq_spelling, hspan]
    exact ⟨hp, isAt_ofString _ rest, trivial⟩

/-! ## The law -/

/-- **Errors and longer sources.**

* An unexpected character is the error, with the same span, of every source that has the same text
  up to the end of that span.
* A source that ends in an open string has room for a quote: with it, the source scans, into the
  tokens before the string and one more, the token of the string. The quote is what the diagnostic
  asks for. Without a quote, the string stays open in every longer source. -/
theorem scan_error_extension (source : String) :
    (∀ c span, scan source = .error (.unexpectedCharacter c span) →
      ∃ kept, Text.slice? source.toList 0 span.stop.offset = some kept ∧
        ∀ x : String, span.stop.offset + Text.byteLength x.toList ≤ maxSourceLength →
          scan (String.ofList kept ++ x) = .error (.unexpectedCharacter c span)) ∧
    ∀ span, scan source = .error (.unterminatedString span) →
      (ScanError.unterminatedString span).diagnostic.suggestion =
        some "add a closing '\"' to end the string" ∧
      (Text.byteLength source.toList < maxSourceLength →
        ∃ before body tokens,
          Text.splitAt? source.toList span.start.offset = some (before, '"' :: body) ∧
            scan (String.ofList before) = .ok tokens ∧
            scan (source ++ "\"") = .ok (tokens ++
              [Token.ofString body ⟨span.start, span.stop.advance '"'⟩])) ∧
      ∀ x : String, '"' ∉ x.toList →
        Text.byteLength source.toList + Text.byteLength x.toList ≤ maxSourceLength →
          ∃ stop, scan (source ++ x) = .error (.unterminatedString ⟨span.start, stop⟩) := by
  constructor
  · intro c span he
    have hle := length_le_of_scan_error he (by simp)
    obtain ⟨before, c, rest, tokens, hsource, hscan, hlast, hfault⟩ :=
      (scan_eq_error_iff_faultAt hle).mp he
    cases hfault with
    | unexpectedCharacter hc =>
      have hstop := Position.offset_start_after (before ++ [c])
      refine ⟨before ++ [c], ?_, fun x hx => ?_⟩
      · rw [hstop, hsource, List.append_cons]
        exact Text.slice?_start (before ++ [c]) rest
      · rw [hstop] at hx
        exact scan_of_unexpected_append hc hscan hlast x hx
  · intro span he
    have hle := length_le_of_scan_error he (by simp)
    obtain ⟨before, c, rest, tokens, hsource, hscan, hlast, hfault⟩ :=
      (scan_eq_error_iff_faultAt hle).mp he
    cases hfault with
    | unterminatedString hno =>
      refine ⟨rfl, fun hlt => ⟨before, rest, tokens, ?_, hscan, ?_⟩, fun x hx hlong => ?_⟩
      · rw [hsource, Position.offset_start_after]
        exact Text.splitAt?_byteLength before ('"' :: rest)
      · rw [← hsource]
        exact scan_close_quote hno hsource hscan hlast hlt
      · exact ⟨_, scan_of_unterminated_append hno hsource hscan hlast hx hlong⟩

/-- A sign in front of a quote that would be open, and a string left open over two lines. -/
theorem scan_error_extension_quote :
    (∃ span, scan "a @" = .error (.unexpectedCharacter '@' span) ∧
      scan (String.ofList ['a', ' ', '@'] ++ "\"") = .error (.unexpectedCharacter '@' span)) ∧
      ∃ span, scan "1.\"é\n" = .error (.unterminatedString span) ∧
        (∃ tokens, scan ("1.\"é\n" ++ "\"") = .ok (tokens ++
          [Token.ofString ['é', '\n'] ⟨span.start, span.stop.advance '"'⟩])) ∧
        ∃ stop, scan ("1.\"é\n" ++ "//") = .error (.unterminatedString ⟨span.start, stop⟩) := by
  constructor
  · have he : (scan "a @").map (List.map piece) =
        .error (.unexpectedCharacter '@' ⟨⟨1, 3, 2⟩, ⟨1, 4, 3⟩⟩) := by
      decide +kernel
    have hs := eq_error_of_map he
    obtain ⟨kept, hkept, hlonger⟩ := (scan_error_extension _).1 _ _ hs
    obtain rfl : ['a', ' ', '@'] = kept := Option.some.inj hkept
    exact ⟨_, hs, hlonger "\"" (by decide)⟩
  · have he : (scan "1.\"é\n").map (List.map piece) =
        .error (.unterminatedString ⟨⟨1, 3, 2⟩, ⟨2, 1, 6⟩⟩) := by
      decide +kernel
    have hs := eq_error_of_map he
    obtain ⟨-, hclose, hopen⟩ := (scan_error_extension _).2 _ hs
    obtain ⟨before, body, tokens, hsplit, -, hclosed⟩ := hclose (by decide)
    obtain rfl : ['é', '\n'] = body := by
      injection hsplit with h
      injection (Prod.mk.inj h).2
    exact ⟨_, hs, ⟨tokens, hclosed⟩, hopen "//" (by decide) (by decide)⟩

end LoxTokenizer
