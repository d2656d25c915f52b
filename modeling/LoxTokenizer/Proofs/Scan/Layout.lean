import LoxTokenizer.Output.Listing
import LoxTokenizer.Proofs.Lexeme.LineEnding
import LoxTokenizer.Proofs.Scan.FirstError

/-!
# Layout carries no meaning

The tokens of a source that carry a meaning are its lexemes but for white space and comments. They
may be laid out anew: with other white space and other comments between them, as long as there is
something between each two of them. What is put between starts with white space, so that no lexeme
before it goes on, and ends with white space, so that no comment takes in the lexeme behind it.

* `IsSeparator`: a text that may stand between two lexemes.
* `LaidOut tokens text`: the lexemes of the tokens with a separator between each two of them.
* `not_extends_whiteSpace`: of all lexemes only a comment goes on into white space.
* `not_glue_of_trivia`: nothing goes on from white space.
* **`exists_munch_of_laidOut`**: what is laid out is munched, and its pieces of meaning are those of
  the tokens.
* **`scan_laidOut`**: laying out the tokens of a source anew changes none that carries a meaning.
-/

namespace LoxTokenizer

open Lexeme Token

/-! ## White space -/

/-- The characters that are white space to the language. -/
def IsWhiteSpace (c : Char) : Prop :=
  c ∈ [' ', '\t', '\r', '\n']

instance : DecidablePred IsWhiteSpace := fun _ => inferInstanceAs (Decidable (_ ∈ _))

namespace Lexeme

variable {kind : TokenKind} {lexeme behind rest : List Char} {c : Char}
  {pieces : List (TokenKind × List Char)}

theorem separates_of_isWhiteSpace (hc : IsWhiteSpace c) (hline : c ≠ '\n') : Separates c := by
  unfold IsWhiteSpace at hc
  simp only [List.mem_cons, List.not_mem_nil, or_false] at hc
  unfold Separates
  rcases hc with rfl | rfl | rfl | rfl
  · decide
  · decide
  · decide
  · exact absurd rfl hline

/-- **Only a comment goes on** into white space. -/
theorem not_extends_whiteSpace (hc : IsWhiteSpace c) (hk : kind ≠ .comment) :
    ¬ Extends kind lexeme (c :: rest) := by
  by_cases hline : c = '\n'
  · rw [hline]
    exact not_extends_newline
  · intro hx
    exact hk ((extends_iff_of_separates (separates_of_isWhiteSpace hc hline)).mp hx)

/-- **Nothing goes on from white space**, whatever comments are in it, unless a comment is last. -/
theorem not_glue_of_trivia (h : ∀ piece ∈ pieces, piece.1.isTrivia = true)
    (hlast : ∀ piece, pieces.getLast? = some piece → piece.1 ≠ .comment) :
    ¬ Glue pieces behind := by
  intro hg
  cases hg with
  | @last earlier kind lexeme behind hx =>
    have htrivia : kind.isTrivia = true := h (kind, lexeme) (by simp)
    have hcomment : kind ≠ .comment := hlast (kind, lexeme) List.getLast?_concat
    cases kind <;> first
      | exact absurd rfl hcomment
      | exact absurd htrivia (by decide)
      | exact absurd hx.1 (by decide)
  | @point earlier digits point rest d hd hdigit =>
    have htrivia : TokenKind.dot.isTrivia = true := h (.dot, point) (by simp)
    cases htrivia

end Lexeme

/-! ## Separators -/

/-- **A separator**: white space and comments, with white space at the front and no comment last. -/
structure IsSeparator (s : String) : Prop where
  scans : ∃ tokens, scan s = .ok tokens ∧ (∀ t ∈ tokens, t.kind.isTrivia = true) ∧
    NoCommentLast tokens
  starts : ∃ c ∈ s.toList.head?, IsWhiteSpace c

/-- The lexemes of some tokens in their order, with a separator between each two of them. Behind the
last one there may be a separator, too. -/
inductive LaidOut : List Token → String → Prop where
  | nil : LaidOut [] ""
  | last (t : Token) {s : String} (hs : s = "" ∨ IsSeparator s) : LaidOut [t] (t.lexeme ++ s)
  | cons (t : Token) {s text : String} {next : Token} {tokens : List Token} (hs : IsSeparator s)
      (h : LaidOut (next :: tokens) text) :
      LaidOut (t :: next :: tokens) (t.lexeme ++ s ++ text)

variable {s text : String} {t : Token} {tokens more : List Token}

/-- A separator is munched, and leaves the text behind it as it is. -/
theorem IsSeparator.exists_munch (h : IsSeparator s) (behind : List Char) :
    ∃ pieces, Munch (s.toList ++ behind) pieces behind ∧ significant pieces = [] := by
  obtain ⟨tokens, hscan, htrivia, hlast⟩ := h.scans
  have hpieces : ∀ p ∈ tokens.map piece, p.1.isTrivia = true :=
    List.forall_mem_map.mpr htrivia
  have hglue : ¬ Glue (tokens.map piece) behind := by
    refine not_glue_of_trivia hpieces fun p hp => ?_
    rw [List.getLast?_map, Option.map_eq_some_iff] at hp
    obtain ⟨t, ht, rfl⟩ := hp
    exact hlast t ht
  refine ⟨_, (munch_of_scan hscan).extend hglue, List.filter_eq_nil_iff.mpr fun p hp => ?_⟩
  simp [hpieces p hp]

/-- A lexeme before a separator is munched, and so is what is behind the separator. -/
theorem IsSeparator.munch_lexeme (h : IsSeparator s) {kind : TokenKind} {lexeme : List Char}
    (hs : Spells kind lexeme) (hk : kind.isTrivia = false) (behind : List Char) :
    ∃ pieces, Munch (lexeme ++ (s.toList ++ behind)) pieces behind ∧
      significant pieces = [(kind, lexeme)] := by
  obtain ⟨pieces, hm, hnone⟩ := h.exists_munch behind
  obtain ⟨c, hc, hwhite⟩ := h.starts
  obtain ⟨rest, hrest⟩ := List.head?_eq_some_iff.mp hc
  have hcomment : kind ≠ .comment := by
    rintro rfl
    cases hk
  have hlongest : IsLongest kind lexeme (lexeme ++ (s.toList ++ behind)) := by
    rw [isLongest_append_iff hs, hrest, List.cons_append]
    exact not_extends_whiteSpace hwhite hcomment
  refine ⟨_, .lexeme hlongest hm, ?_⟩
  unfold significant at hnone ⊢
  rw [List.filter_cons_of_pos (by simp [hk]), hnone]

/-- **What is laid out is munched**, and its pieces of meaning are those of the tokens. -/
theorem exists_munch_of_laidOut (h : LaidOut tokens text)
    (ht : ∀ t ∈ tokens, Spells t.kind t.lexeme.toList ∧ t.kind.isTrivia = false) :
    ∃ pieces, Munch text.toList pieces [] ∧ significant pieces = tokens.map piece := by
  induction h with
  | nil => exact ⟨[], .done, rfl⟩
  | @last t s hs =>
    obtain ⟨hspells, hkind⟩ := ht t (by simp)
    rw [String.toList_append]
    rcases hs with rfl | hs
    · have hlongest : IsLongest t.kind t.lexeme.toList (t.lexeme.toList ++ []) :=
        (isLongest_append_iff hspells).mpr not_extends_nil
      refine ⟨_, .lexeme hlongest .done, ?_⟩
      simp [significant, hkind, piece]
    · obtain ⟨pieces, hm, hsame⟩ := hs.munch_lexeme hspells hkind []
      rw [List.append_nil] at hm
      exact ⟨pieces, hm, hsame⟩
  | @cons t s text next tokens hs _ ih =>
    obtain ⟨hfirst, hothers⟩ := List.forall_mem_cons.mp ht
    obtain ⟨pieces, hm, hsame⟩ := ih hothers
    obtain ⟨first, hfront, hone⟩ := hs.munch_lexeme hfirst.1 hfirst.2 text.toList
    refine ⟨first ++ pieces, ?_, ?_⟩
    · rw [String.toList_append, String.toList_append, List.append_assoc]
      exact hfront.trans hm
    · rw [significant_append, hone, hsame]
      rfl

/-! ## What a token says but for its place -/

/-- The kind, the lexeme and the value of a token. -/
def Token.content (t : Token) : TokenKind × String × Literal :=
  (t.kind, t.lexeme, t.literal)

theorem Token.Placed.literal_eq {place : Position} (h : Placed place tokens) :
    ∀ t ∈ tokens, Literal.ofLexeme? t.kind t.lexeme.toList = some t.literal := by
  induction tokens generalizing place with
  | nil => simp
  | cons t tokens ih => exact List.forall_mem_cons.mpr ⟨h.1.literal, ih h.2⟩

/-- Where tokens have the values of their lexemes, their pieces decide what they say. -/
theorem Token.map_content_eq
    (h : ∀ t ∈ tokens, Literal.ofLexeme? t.kind t.lexeme.toList = some t.literal)
    (h' : ∀ t ∈ more, Literal.ofLexeme? t.kind t.lexeme.toList = some t.literal)
    (hp : tokens.map piece = more.map piece) : tokens.map content = more.map content := by
  induction tokens generalizing more with
  | nil =>
    rw [List.map_eq_nil_iff.mp hp.symm]
  | cons t tokens ih =>
    cases more with
    | nil => cases hp
    | cons u more =>
      obtain ⟨hfirst, hrest⟩ := List.cons.inj hp
      obtain ⟨hkind, hlexeme⟩ := Prod.mk.inj hfirst
      obtain ⟨ht, hts⟩ := List.forall_mem_cons.mp h
      obtain ⟨hu, hus⟩ := List.forall_mem_cons.mp h'
      have hliteral : t.literal = u.literal := by
        rw [hkind, hlexeme, hu] at ht
        exact (Option.some.inj ht).symm
      have hcontent : t.content = u.content := by
        unfold content
        rw [hkind, String.toList_inj.mp hlexeme, hliteral]
      rw [List.map_cons, List.map_cons, hcontent, ih hts hus hrest]

/-- The pieces of meaning are those of the tokens of meaning. -/
theorem map_piece_shown (tokens : List Token) :
    (Listing.shown false tokens).map piece = significant (tokens.map piece) := by
  unfold Listing.shown significant
  rw [List.filter_map]
  rfl

theorem mem_of_mem_shown (h : t ∈ Listing.shown false tokens) :
    t ∈ tokens ∧ t.kind.isTrivia = false := by
  simpa [Listing.shown] using h

/-! ## Laying out anew -/

/-- The lexemes of the tokens of meaning, with a space between each two of them. -/
def rejoined (tokens : List Token) : String :=
  String.intercalate " " ((Listing.shown false tokens).map Token.lexeme)

/-- The kinds of its tokens show that a text is a separator. -/
theorem isSeparator_of_kinds (kinds : List TokenKind)
    (hs : (scan s).map (List.map Token.kind) = .ok kinds)
    (htrivia : ∀ kind ∈ kinds, kind.isTrivia = true) (hlast : kinds.getLast? ≠ some .comment)
    (hstarts : ∃ c ∈ s.toList.head?, IsWhiteSpace c) : IsSeparator s := by
  obtain ⟨tokens, hscan, rfl⟩ := exists_of_map_eq_ok hs
  refine ⟨⟨tokens, hscan, List.forall_mem_map.mp htrivia, fun t ht hk => hlast ?_⟩, hstarts⟩
  rw [List.getLast?_map, ht, Option.map_some, hk]

theorem isSeparator_space : IsSeparator " " :=
  isSeparator_of_kinds [.space] (by decide +kernel) (by decide) (by decide)
    ⟨' ', rfl, by decide⟩

/-- A space between each two lexemes is a layout. -/
theorem laidOut_intercalate (tokens : List Token) :
    LaidOut tokens (String.intercalate " " (tokens.map Token.lexeme)) := by
  induction tokens with
  | nil => exact .nil
  | cons t tokens ih =>
    cases tokens with
    | nil => simpa using LaidOut.last t (Or.inl rfl)
    | cons next tokens => simpa [String.append_assoc] using LaidOut.cons t isSeparator_space ih

/-- **A layout scans** into the same tokens of meaning, but for their places. -/
theorem exists_scan_of_laidOut {source first : String} (h : scan source = .ok tokens)
    (hfirst : first = "" ∨ IsSeparator first)
    (htext : LaidOut (Listing.shown false tokens) text)
    (hle : Text.byteLength (first ++ text).toList ≤ maxSourceLength) :
    ∃ more, scan (first ++ text) = .ok more ∧
      (Listing.shown false more).map content = (Listing.shown false tokens).map content := by
  obtain ⟨-, hm, hp⟩ := scan_eq_ok_iff.mp h
  have hspells : ∀ t ∈ Listing.shown false tokens,
      Spells t.kind t.lexeme.toList ∧ t.kind.isTrivia = false := by
    intro t ht
    obtain ⟨hmem, htrivia⟩ := mem_of_mem_shown ht
    exact ⟨(spells_of_munch hm hp t hmem).1, htrivia⟩
  obtain ⟨pieces, hpieces, hsame⟩ := exists_munch_of_laidOut htext hspells
  obtain ⟨front, hfront, hnone⟩ : ∃ front, Munch (first ++ text).toList front text.toList ∧
      significant front = [] := by
    rw [String.toList_append]
    rcases hfirst with rfl | hfirst
    · exact ⟨[], .done, rfl⟩
    · exact hfirst.exists_munch text.toList
  obtain ⟨more, hscan, hmore⟩ := exists_scan_of_munch hle (hfront.trans hpieces)
  refine ⟨more, hscan, map_content_eq (fun t ht => ?_) (fun t ht => ?_) ?_⟩
  · exact (scan_eq_ok_iff.mp hscan).2.2.literal_eq t (mem_of_mem_shown ht).1
  · exact hp.literal_eq t (mem_of_mem_shown ht).1
  · rw [map_piece_shown more, hmore, significant_append, hnone, hsame]
    rfl

/-- **Layout carries no meaning.** The tokens of a source but for white space and comments may be
laid out anew, with separators between them, and, if one likes, before and behind them. Within the
size limit the new text scans, and its tokens but for white space and comments have the same kinds,
lexemes and values in the same order. Single spaces are one such layout: to scan what they join, and
to join it again, changes nothing. -/
theorem scan_laidOut {source : String} (h : scan source = .ok tokens) :
    (∀ first text, first = "" ∨ IsSeparator first →
      LaidOut (Listing.shown false tokens) text →
      Text.byteLength (first ++ text).toList ≤ maxSourceLength →
        ∃ more, scan (first ++ text) = .ok more ∧
          (Listing.shown false more).map content = (Listing.shown false tokens).map content) ∧
    (Text.byteLength (rejoined tokens).toList ≤ maxSourceLength →
      ∃ more, scan (rejoined tokens) = .ok more ∧ rejoined more = rejoined tokens) := by
  refine ⟨fun first text hfirst htext hle => exists_scan_of_laidOut h hfirst htext hle,
    fun hle => ?_⟩
  have hjoined : "" ++ rejoined tokens = rejoined tokens := String.empty_append
  rw [← hjoined] at hle
  obtain ⟨more, hscan, hsame⟩ :=
    exists_scan_of_laidOut h (Or.inl rfl) (laidOut_intercalate _) hle
  rw [← rejoined, hjoined] at hscan
  refine ⟨more, hscan, ?_⟩
  have hlexemes := congrArg (List.map fun c : TokenKind × String × Literal => c.2.1) hsame
  rw [List.map_map, List.map_map] at hlexemes
  exact congrArg (String.intercalate " ") hlexemes

/-- Two slashes with a line feed and a comment between them stay two, and a comment behind a lexeme
takes in none of those behind it. -/
theorem scan_laidOut_slashes : ∃ tokens, scan "x//c\n/ /" = .ok tokens ∧
    (∃ more, scan " //\nx\r/\t// d\n/" = .ok more ∧
      (Listing.shown false more).map content = (Listing.shown false tokens).map content) ∧
    ∃ more, scan "x / /" = .ok more ∧ rejoined more = "x / /" := by
  have hs : (scan "x//c\n/ /").map (fun tokens => (Listing.shown false tokens).map Token.lexeme) =
      .ok ["x", "/", "/"] := by
    decide +kernel
  obtain ⟨tokens, h, hlexemes⟩ := exists_of_map_eq_ok hs
  obtain ⟨t, u, v, hshown⟩ : ∃ t u v, Listing.shown false tokens = [t, u, v] :=
    List.length_eq_three.mp (by simpa using congrArg List.length hlexemes)
  rw [hshown] at hlexemes
  obtain ⟨ht, hu, hv⟩ : t.lexeme = "x" ∧ u.lexeme = "/" ∧ v.lexeme = "/" := by
    simpa using hlexemes
  obtain ⟨hlayout, hspaces⟩ := scan_laidOut h
  have hfirst : IsSeparator " //\n" :=
    isSeparator_of_kinds [.space, .comment, .newline] (by decide +kernel) (by decide)
      (by decide) ⟨' ', rfl, by decide⟩
  have hreturn : IsSeparator "\r" :=
    isSeparator_of_kinds [.carriageReturn] (by decide +kernel) (by decide) (by decide)
      ⟨'\r', rfl, by decide⟩
  have hcomment : IsSeparator "\t// d\n" :=
    isSeparator_of_kinds [.tab, .comment, .newline] (by decide +kernel) (by decide)
      (by decide) ⟨'\t', rfl, by decide⟩
  have hlaid : LaidOut (Listing.shown false tokens) "x\r/\t// d\n/" := by
    rw [hshown]
    have hall := LaidOut.cons t hreturn (.cons u hcomment (.last v (Or.inl rfl)))
    rwa [ht, hu, hv] at hall
  have hjoined : rejoined tokens = "x / /" := by
    unfold rejoined
    rw [hshown, List.map_cons, List.map_cons, List.map_cons, ht, hu, hv]
    rfl
  refine ⟨tokens, h, hlayout " //\n" _ (Or.inr hfirst) hlaid (by decide), ?_⟩
  rw [hjoined] at hspaces
  exact hspaces (by decide)

end LoxTokenizer
