import LoxTokenizer.Output.Listing
import LoxTokenizer.Proofs.Lexeme.CarriageReturn
import LoxTokenizer.Proofs.Scan.FirstError

/-!
# Line endings carry no meaning

A source may have a carriage return before each of its line feeds. Its scan is then the scan of the
source without them, but for offsets: the run with the returns is followed beside the run without,
and whenever one has read a whole piece and what comes with it, the two are at the same line and the
same column.

* `Position.Matches`, `Token.Matches`, `ScanError.Matches`: the same but for offsets and returns.
* `Position.Matches.withReturns`: reading a text with its returns leads to the same line and column.
* **`Token.matches_of_placed`**: the tokens of the two runs match, but for white space and comments.
* `FaultAt.withReturns`: a fault stays where it is.
* **`scan_withReturns`**: a source scans in the same way with both line endings.
-/

namespace LoxTokenizer

open Lexeme Token

/-- The source with a carriage return before each line feed. -/
def withReturns (source : String) : String :=
  String.ofList (Text.withReturns source.toList)

/-- The value of a lexeme with a carriage return before each line feed in it. -/
def Literal.withReturns : Literal → Literal
  | .number value => .number value
  | .text body => .text (LoxTokenizer.withReturns body)
  | .lexeme raw => .lexeme (LoxTokenizer.withReturns raw)

@[simp] theorem toList_withReturns (source : String) :
    (withReturns source).toList = Text.withReturns source.toList :=
  String.toList_ofList

theorem byteLength_le_withReturns (text : List Char) :
    Text.byteLength text ≤ Text.byteLength (Text.withReturns text) := by
  induction text with
  | nil => exact Nat.le_refl _
  | cons c text ih =>
    by_cases hc : c = '\n'
    · rw [hc, Text.withReturns_newline]
      simp only [Text.byteLength_cons]
      omega
    · rw [Text.withReturns_cons hc]
      simp only [Text.byteLength_cons]
      omega

/-! ## Places -/

/-- Two places of the same line and the same column. -/
structure Position.Matches (p q : Position) : Prop where
  line : p.line = q.line
  column : p.column = q.column

namespace Position.Matches

variable {p q : Position}

theorem render_eq (h : p.Matches q) : q.render = p.render := by
  unfold render
  rw [h.line, h.column]

theorem advance (h : p.Matches q) (c : Char) : (p.advance c).Matches (q.advance c) := by
  unfold Position.advance
  split
  · exact ⟨congrArg (· + 1) h.line, rfl⟩
  · exact ⟨h.line, congrArg (· + 1) h.column⟩

/-- A carriage return moves a place along its line, which a line feed then ends. -/
theorem advance_newline (h : p.Matches q) :
    (p.advance '\n').Matches ((q.advance '\r').advance '\n') :=
  ⟨congrArg (· + 1) h.line, rfl⟩

/-- **The same line and the same column** behind a text and behind the text with its returns. -/
theorem withReturns (h : p.Matches q) (text : List Char) :
    (p.after text).Matches (q.after (Text.withReturns text)) := by
  induction text generalizing p q with
  | nil => exact h
  | cons c text ih =>
    by_cases hc : c = '\n'
    · rw [hc, Text.withReturns_newline]
      exact ih h.advance_newline
    · rw [Text.withReturns_cons hc]
      exact ih (h.advance c)

end Position.Matches

/-! ## Tokens -/

/-- **The same token** in a source and in the source with returns: of the same kind, at the same
line and column, and with the same lexeme and value but for the returns inside of them. -/
structure Token.Matches (t u : Token) : Prop where
  kind : u.kind = t.kind
  line : u.line = t.line
  column : u.column = t.column
  lexeme : u.lexeme = withReturns t.lexeme
  literal : u.literal = t.literal.withReturns

variable {kind : TokenKind} {lexeme : List Char} {literal : Literal}

theorem Literal.withReturns_of_spells (h : Spells kind lexeme) (hk : kind.isTrivia = false)
    (hl : ofLexeme? kind lexeme = some literal) :
    ofLexeme? kind (Text.withReturns lexeme) = some literal.withReturns := by
  obtain ⟨literal', hl', hd⟩ := exists_denotes h
  obtain rfl : literal' = literal := Option.some.inj (hl'.symm.trans hl)
  have hline : kind ≠ .newline := by
    rintro rfl
    cases hk
  cases hd with
  | number hn =>
    rw [h.withReturns_eq hline (by decide)]
    exact hl
  | string body =>
    have hbody : (('"' :: (Text.withReturns body ++ ['"'])).drop 1).dropLast =
        Text.withReturns body := by
      simp
    rw [withReturns_string, ofLexeme?, hbody]
    simp [withReturns, LoxTokenizer.withReturns]
  | comment => cases hk
  | other hkind =>
    rw [ofLexeme?_other hkind]
    simp [withReturns, LoxTokenizer.withReturns]

namespace Token

variable {t u : Token} {tokens more : List Token} {p q : Position}

theorem shown_cons_of_trivia (h : t.kind.isTrivia = true) :
    Listing.shown false (t :: tokens) = Listing.shown false tokens :=
  List.filter_cons_of_neg (by simp [h])

theorem shown_cons_of_not_trivia (h : t.kind.isTrivia = false) :
    Listing.shown false (t :: tokens) = t :: Listing.shown false tokens :=
  List.filter_cons_of_pos (by simp [h])

theorem placed_cons : Placed p (t :: tokens) ↔
    t.IsAt p ∧ Placed (p.after t.lexeme.toList) tokens :=
  and_congr_right fun ht => by rw [ht.span]

/-- A token that is neither white space nor a comment matches the one of its lexeme with returns. -/
theorem IsAt.matches (ht : t.IsAt p) (hu : u.IsAt q) (hpq : p.Matches q)
    (hs : Spells t.kind t.lexeme.toList) (hk : t.kind.isTrivia = false)
    (hpiece : u.piece = (t.kind, Text.withReturns t.lexeme.toList)) : t.Matches u := by
  obtain ⟨hkind, hlexeme⟩ := Prod.mk.inj hpiece
  have hstop := hpq.withReturns t.lexeme.toList
  have hliteral := Literal.withReturns_of_spells hs hk ht.literal
  rw [← hkind, ← hlexeme, hu.literal] at hliteral
  rw [← hlexeme] at hstop
  refine ⟨hkind, ?_, ?_, ?_, Option.some.inj hliteral⟩
  · unfold Token.line
    rw [ht.span, hu.span]
    exact hstop.line.symm
  · unfold Token.column
    rw [ht.span, hu.span]
    exact hpq.column.symm
  · rw [← String.toList_inj, toList_withReturns]
    exact hlexeme

/-- Such a token in front of tokens that match. White space and comments are not shown. -/
theorem IsAt.forall₂_shown_cons (ht : t.IsAt p) (hu : u.IsAt q) (hpq : p.Matches q)
    (hs : Spells t.kind t.lexeme.toList)
    (hpiece : u.piece = (t.kind, Text.withReturns t.lexeme.toList))
    (hrest : List.Forall₂ Matches (Listing.shown false tokens) (Listing.shown false more)) :
    List.Forall₂ Matches (Listing.shown false (t :: tokens)) (Listing.shown false (u :: more)) := by
  have hkind : u.kind = t.kind := (Prod.mk.inj hpiece).1
  by_cases hk : t.kind.isTrivia = true
  · rwa [shown_cons_of_trivia hk, shown_cons_of_trivia (hkind ▸ hk)]
  · rw [Bool.not_eq_true] at hk
    rw [shown_cons_of_not_trivia hk, shown_cons_of_not_trivia (hkind ▸ hk)]
    exact .cons (ht.matches hu hpq hs hk hpiece) hrest

theorem exists_cons_of_map {pieces : List (TokenKind × List Char)}
    (h : tokens.map piece = (kind, lexeme) :: pieces) : ∃ t rest, tokens = t :: rest ∧
      t.kind = kind ∧ t.lexeme.toList = lexeme ∧ rest.map piece = pieces := by
  obtain ⟨t, rest, rfl, ht, hrest⟩ := List.map_eq_cons_iff.mp h
  obtain ⟨hkind, hlexeme⟩ := Prod.mk.inj ht
  exact ⟨t, rest, rfl, hkind, hlexeme, hrest⟩

/-- **The two runs side by side**: from places of the same line and column on, the tokens of a text
and those of the text with its returns match, but for white space and comments. -/
theorem matches_of_placed (hs : ∀ t ∈ tokens, Spells t.kind t.lexeme.toList)
    (hp : Placed p tokens) (hq : Placed q more) (hpq : p.Matches q)
    (hpieces : more.map piece = returned (tokens.map piece)) :
    List.Forall₂ Matches (Listing.shown false tokens) (Listing.shown false more) := by
  generalize h : tokens.map piece = pieces at hpieces
  induction pieces using returned.induct generalizing tokens more p q with
  | case1 =>
    obtain rfl := List.map_eq_nil_iff.mp h
    obtain rfl := List.map_eq_nil_iff.mp hpieces
    exact .nil
  | case2 lexeme line pieces ih =>
    -- A comment and a line feed, beside the comment with its return and the line feed.
    obtain ⟨t, after, rfl, ht, rfl, hafter⟩ := exists_cons_of_map h
    obtain ⟨n, tokens, rfl, hn, rfl, htokens⟩ := exists_cons_of_map hafter
    obtain ⟨u, more, rfl, hu, hulexeme, hmore⟩ := exists_cons_of_map hpieces
    obtain ⟨m, more, rfl, hm, hmlexeme, hmore⟩ := exists_cons_of_map hmore
    obtain ⟨hts, hns, hs⟩ : Spells _ _ ∧ Spells _ _ ∧ _ := by simpa using hs
    rw [ht] at hts
    rw [hn] at hns
    have hline : n.lexeme.toList = ['\n'] := hns.eq_of_punctuation rfl
    have hsame := hts.withReturns_eq (by decide) (by decide)
    rw [placed_cons, placed_cons, hline] at hp
    rw [placed_cons, placed_cons, hulexeme, hmlexeme] at hq
    rw [shown_cons_of_trivia (by rw [ht]; rfl), shown_cons_of_trivia (by rw [hn]; rfl),
      shown_cons_of_trivia (by rw [hu]; rfl), shown_cons_of_trivia (by rw [hm]; rfl)]
    refine ih hs hp.2.2 hq.2.2 ?_ htokens hmore
    have hboth := hpq.withReturns t.lexeme.toList
    rw [hsame] at hboth
    rw [Position.after_append]
    exact hboth.advance_newline
  | case3 line pieces ih =>
    -- A line feed, beside a carriage return and a line feed.
    obtain ⟨n, tokens, rfl, hn, rfl, htokens⟩ := exists_cons_of_map h
    obtain ⟨u, more, rfl, hu, hulexeme, hmore⟩ := exists_cons_of_map hpieces
    obtain ⟨m, more, rfl, hm, hmlexeme, hmore⟩ := exists_cons_of_map hmore
    obtain ⟨hns, hs⟩ := List.forall_mem_cons.mp hs
    rw [hn] at hns
    have hline : n.lexeme.toList = ['\n'] := hns.eq_of_punctuation rfl
    rw [placed_cons, hline] at hp
    rw [placed_cons, placed_cons, hulexeme, hmlexeme] at hq
    rw [shown_cons_of_trivia (by rw [hn]; rfl), shown_cons_of_trivia (by rw [hu]; rfl),
      shown_cons_of_trivia (by rw [hm]; rfl)]
    exact ih hs hp.2 hq.2.2 hpq.advance_newline htokens hmore
  | case4 kind lexeme pieces hcomment hline ih =>
    rw [returned] at hpieces
    · obtain ⟨t, tokens, rfl, rfl, rfl, htokens⟩ := exists_cons_of_map h
      obtain ⟨u, more, rfl, hu, hulexeme, hmore⟩ := exists_cons_of_map hpieces
      obtain ⟨hts, hs⟩ := List.forall_mem_cons.mp hs
      rw [placed_cons] at hp hq
      rw [hulexeme] at hq
      exact hp.1.forall₂_shown_cons hq.1 hpq hts (by rw [piece, hu, hulexeme])
        (ih hs hp.2 hq.2 (hpq.withReturns _) htokens hmore)
    · exact hcomment
    · exact hline

end Token

/-! ## Errors -/

/-- **The same error** in a source and in the source with returns: one that starts at the same line
and column, and, for a character that no lexeme starts with, one of the same character. -/
inductive ScanError.Matches : ScanError → ScanError → Prop where
  | unterminatedString {s s' : Span} (h : s.start.Matches s'.start) :
      Matches (.unterminatedString s) (.unterminatedString s')
  | unexpectedCharacter (c : Char) {s s' : Span} (h : s.start.Matches s'.start) :
      Matches (.unexpectedCharacter c s) (.unexpectedCharacter c s')

theorem ScanError.Matches.message_eq {e e' : ScanError} (h : e.Matches e') :
    e'.message = e.message := by
  cases h with
  | unterminatedString h => exact congrArg (_ ++ ·) h.render_eq
  | unexpectedCharacter c h => exact congrArg (_ ++ ·) h.render_eq

/-- **A fault stays a fault** of the same kind, at the same line and column. -/
theorem FaultAt.withReturns {before rest : List Char} {c : Char} {e : ScanError}
    (h : FaultAt before c rest e) : ∃ e', e.Matches e' ∧
      FaultAt (Text.withReturns before) c (Text.withReturns rest) e' := by
  have hplace : (Position.start.after before).Matches
      (Position.start.after (Text.withReturns before)) :=
    Position.Matches.withReturns ⟨rfl, rfl⟩ before
  cases h with
  | unterminatedString hno =>
    refine ⟨_, .unterminatedString hplace, .unterminatedString fun hquote => ?_⟩
    rcases Text.mem_withReturns hquote with h | h
    · exact hno h
    · exact absurd h (by decide)
  | unexpectedCharacter hc => exact ⟨_, .unexpectedCharacter c hplace, .unexpectedCharacter hc⟩

/-! ## Scans -/

variable {source : String} {tokens : List Token} {e : ScanError}

/-- The scan of a source that scans, with its returns. -/
theorem exists_scan_withReturns
    (hle : Text.byteLength (withReturns source).toList ≤ maxSourceLength)
    (h : scan source = .ok tokens) : ∃ more, scan (withReturns source) = .ok more ∧
      List.Forall₂ Token.Matches (Listing.shown false tokens) (Listing.shown false more) := by
  obtain ⟨-, hm, hp⟩ := scan_eq_ok_iff.mp h
  have hreturns := hm.withReturns (by simp)
  obtain ⟨more, hmore, hq⟩ := exists_placed hreturns .start
  rw [← hmore, ← toList_withReturns] at hreturns
  exact ⟨more, scan_eq_ok_iff.mpr ⟨hle, hreturns, hq⟩,
    matches_of_placed (fun t ht => (spells_of_munch hm hp t ht).1) hp hq ⟨rfl, rfl⟩ hmore⟩

/-- The scan of a source that fails, with its returns. -/
theorem exists_scan_withReturns_error
    (hle : Text.byteLength (withReturns source).toList ≤ maxSourceLength)
    (h : scan source = .error e) :
    ∃ e', scan (withReturns source) = .error e' ∧ e.Matches e' := by
  have hshort : Text.byteLength source.toList ≤ maxSourceLength :=
    Nat.le_trans (byteLength_le_withReturns _) (toList_withReturns source ▸ hle)
  obtain ⟨tokens, c, rest, hm, hp, hfirst⟩ := (scan_eq_error_iff hshort).mp h
  have hfault := first_eq_error_iff_faultAt.mp hfirst
  have hc : c ≠ '\n' := hfault.separates.2.2.2.2
  have hreturns := hm.withReturns (by simpa using hc)
  obtain ⟨more, hmore, hq⟩ := exists_placed hreturns .start
  -- What the pieces with the returns spell is the text before the fault, with its returns.
  have hspell : spelling (more.map piece) = Text.withReturns (spelling (tokens.map piece)) := by
    have hall := hreturns.eq_append
    rw [hm.eq_append, Text.withReturns_append, ← hmore] at hall
    exact (List.append_cancel_right hall).symm
  obtain ⟨e', hmatches, hfault'⟩ := hfault.withReturns
  refine ⟨e', (scan_eq_error_iff hle).mpr ⟨more, c, Text.withReturns rest, ?_, hq, ?_⟩, hmatches⟩
  · rwa [toList_withReturns, hmore, ← Text.withReturns_cons hc]
  · rw [hspell]
    exact first_eq_error_iff_faultAt.mpr hfault'

/-- **Line endings carry no meaning.** Where the source with a carriage return before each of its
line feeds is within the size limit, it scans exactly when the source does. Their tokens are then
the same one by one, white space and comments aside: of the same kinds, at the same lines and
columns, and with the same lexemes and values but for the returns inside of them. Where they fail,
they do so with the same error at the same line and column, and say so in the same words. -/
theorem scan_withReturns (source : String)
    (hle : Text.byteLength (withReturns source).toList ≤ maxSourceLength) :
    ((∃ more, scan (withReturns source) = .ok more) ↔ ∃ tokens, scan source = .ok tokens) ∧
      (∀ tokens more, scan source = .ok tokens → scan (withReturns source) = .ok more →
        List.Forall₂ Token.Matches (Listing.shown false tokens) (Listing.shown false more)) ∧
      ∀ e e', scan source = .error e → scan (withReturns source) = .error e' →
        e.Matches e' ∧ e'.message = e.message := by
  refine ⟨⟨?_, ?_⟩, fun tokens more h h' => ?_, fun e e' h h' => ?_⟩
  · rintro ⟨more, hmore⟩
    cases h : scan source with
    | ok tokens => exact ⟨tokens, rfl⟩
    | error e =>
      obtain ⟨e', he', -⟩ := exists_scan_withReturns_error hle h
      rw [hmore] at he'
      cases he'
  · rintro ⟨tokens, h⟩
    obtain ⟨more, hmore, -⟩ := exists_scan_withReturns hle h
    exact ⟨more, hmore⟩
  · obtain ⟨more', hmore, hmatches⟩ := exists_scan_withReturns hle h
    obtain rfl : more' = more := Except.ok.inj (hmore.symm.trans h')
    exact hmatches
  · obtain ⟨e'', he, hmatches⟩ := exists_scan_withReturns_error hle h
    obtain rfl : e'' = e' := Except.error.inj (he.symm.trans h')
    exact ⟨hmatches, hmatches.message_eq⟩

/-- A string over two lines behind a comment, and an open string on the third line: the returns are
a part of the comment and of the string, and tokens on their own. -/
theorem scan_withReturns_lines :
    (∃ tokens more, scan "//c\n\"a\nb\" 1" = .ok tokens ∧
      scan "//c\r\n\"a\r\nb\" 1" = .ok more ∧ (Listing.shown false tokens).length = 2 ∧
      List.Forall₂ Token.Matches (Listing.shown false tokens) (Listing.shown false more)) ∧
    ∃ e e', scan "//c\n\n x\"" = .error e ∧ scan "//c\r\n\r\n x\"" = .error e' ∧
      e.Matches e' ∧ e'.message = e.message := by
  constructor
  · have hle : Text.byteLength (withReturns "//c\n\"a\nb\" 1").toList ≤ maxSourceLength := by
      decide
    obtain ⟨hiff, hok, -⟩ := scan_withReturns _ hle
    have hs : (scan "//c\n\"a\nb\" 1").map (fun tokens => (Listing.shown false tokens).length) =
        .ok 2 := by
      decide +kernel
    obtain ⟨tokens, h, hlength⟩ := exists_of_map_eq_ok hs
    obtain ⟨more, hmore⟩ := hiff.mpr ⟨tokens, h⟩
    exact ⟨tokens, more, h, hmore, hlength, hok tokens more h hmore⟩
  · have hle : Text.byteLength (withReturns "//c\n\n x\"").toList ≤ maxSourceLength := by
      decide
    obtain ⟨-, -, herror⟩ := scan_withReturns _ hle
    have hs : (scan "//c\n\n x\"").map (List.map piece) =
        .error (.unterminatedString ⟨⟨3, 3, 7⟩, ⟨3, 4, 8⟩⟩) := by
      decide +kernel
    have hs' : (scan "//c\r\n\r\n x\"").map (List.map piece) =
        .error (.unterminatedString ⟨⟨3, 3, 9⟩, ⟨3, 4, 10⟩⟩) := by
      decide +kernel
    have h := eq_error_of_map hs
    have h' := eq_error_of_map hs'
    exact ⟨_, _, h, h', herror _ _ h h'⟩

end LoxTokenizer
