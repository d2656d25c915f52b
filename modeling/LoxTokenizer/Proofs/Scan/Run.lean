import LoxTokenizer.Proofs.Lexeme.Munch
import LoxTokenizer.Proofs.Results
import LoxTokenizer.Scan

/-!
# What a run does

A run is described by two facts that know nothing of each other: which lexemes it takes off the
text (`Munch`), and what token it makes of each lexeme at each place (`Placed`). Every result on
scans is drawn from them.

* `Denotes`: the value that a lexeme stands for. `exists_denotes` shows that `ofLexeme?` gives it
  to every lexeme: no numeral of the grammar is refused.
* `Token.first_append_iff`: the first token of a text is its longest lexeme, placed.
* **`ScanRun.startingAt_of_munch`**: a munch and placed tokens are the beginning of a run.
* **`ScanRun.exists_munch`**: every run is a munch and placed tokens, up to the end of the text or
  to a place where no lexeme starts.
* `scan_eq_ok_iff`, `scan_eq_error_iff`: the same for the scan of a source.
-/

namespace LoxTokenizer

open Lexeme CharClass

/-! ## The value of a lexeme -/

/-- The value that a lexeme stands for: a number, the text inside of a string or comment, or the
lexeme itself. -/
inductive Denotes : TokenKind → List Char → Literal → Prop where
  | number {lexeme : List Char} {n : Numeral} (h : Numeral.read? lexeme = some n) :
      Denotes .number lexeme (.number n.toBinary64)
  | string (body : List Char) :
      Denotes .string ('"' :: (body ++ ['"'])) (.text (String.ofList body))
  | comment (body : List Char) : Denotes .comment ('/' :: '/' :: body) (.text (String.ofList body))
  | other {kind : TokenKind} {lexeme : List Char}
      (h : kind ≠ .number ∧ kind ≠ .string ∧ kind ≠ .comment) :
      Denotes kind lexeme (.lexeme (String.ofList lexeme))

theorem Numeral.read?_whole {digits : List Char} (h : Digits digits) :
    Numeral.read? digits = some ⟨Numeral.digitsValue digits, 0⟩ := by
  have hall : digits.takeWhile isDigit = digits := List.takeWhile_eq_self_iff.mpr h.2
  have hrest : digits.dropWhile isDigit = [] := List.dropWhile_eq_nil_iff.mpr h.2
  unfold Numeral.read?
  simp only [hall, hrest]
  rw [if_neg (by simpa using h.1)]

theorem Numeral.read?_decimal {whole fraction : List Char} (hw : Digits whole)
    (hf : Digits fraction) : Numeral.read? (whole ++ '.' :: fraction) =
      some ⟨Numeral.digitsValue (whole ++ fraction), fraction.length⟩ := by
  have hpoint : ∀ c ∈ ('.' :: fraction).head?, isDigit c = false := by
    intro c hc
    cases hc
    exact isDigit_point
  have hrun : (whole ++ '.' :: fraction).takeWhile isDigit = whole := takeWhile_append hw.2 hpoint
  have hrest : (whole ++ '.' :: fraction).dropWhile isDigit = '.' :: fraction := by
    rw [List.dropWhile_append_of_pos hw.2]
    exact List.dropWhile_cons_of_neg (by simp [isDigit_point])
  have hall : fraction.all isDigit = true := List.all_eq_true.mpr hf.2
  unfold Numeral.read?
  simp only [hrun, hrest]
  rw [if_neg (by simpa using hw.1), if_neg (by simpa [hall] using hf.1)]

theorem Literal.ofLexeme?_other {kind : TokenKind}
    (h : kind ≠ .number ∧ kind ≠ .string ∧ kind ≠ .comment) (lexeme : List Char) :
    Literal.ofLexeme? kind lexeme = some (.lexeme (String.ofList lexeme)) := by
  unfold Literal.ofLexeme?
  split
  · exact absurd rfl h.1
  · exact absurd rfl h.2.1
  · exact absurd rfl h.2.2
  · rfl

/-- **Every lexeme has a value**, and it is what the lexeme stands for. -/
theorem exists_denotes {kind : TokenKind} {lexeme : List Char} (h : Spells kind lexeme) :
    ∃ literal, Literal.ofLexeme? kind lexeme = some literal ∧ Denotes kind lexeme literal := by
  have other : (kind ≠ .number ∧ kind ≠ .string ∧ kind ≠ .comment) →
      ∃ literal, Literal.ofLexeme? kind lexeme = some literal ∧ Denotes kind lexeme literal :=
    fun hk => ⟨_, Literal.ofLexeme?_other hk lexeme, .other hk⟩
  cases h with
  | punctuation h =>
    refine other ?_
    unfold TokenKind.punctuation? at h
    split at h <;> cases h <;> decide
  | operator h => cases h <;> exact other (by decide)
  | operatorEqual h => cases h <;> exact other (by decide)
  | @comment body h => exact ⟨_, rfl, .comment body⟩
  | @string body h =>
    have hbody : (('"' :: (body ++ ['"'])).drop 1).dropLast = body := by simp
    exact ⟨_, congrArg (fun text => some (Literal.text (String.ofList text))) hbody, .string body⟩
  | whole h =>
    have hr := Numeral.read?_whole h
    exact ⟨_, by simp [Literal.ofLexeme?, hr], .number hr⟩
  | decimal hw hf =>
    have hr := Numeral.read?_decimal hw hf
    exact ⟨_, by simp [Literal.ofLexeme?, hr], .number hr⟩
  | @word _ c rest hk _ _ =>
    have hword := wordKind_identifier_or_keyword (c :: rest)
    rw [hk] at hword
    refine other ⟨?_, ?_, ?_⟩ <;> rintro rfl <;> exact absurd hword (by decide)

/-! ## Placed tokens -/

namespace Token

/-- The kind and the lexeme of a token. -/
def piece (t : Token) : TokenKind × List Char :=
  (t.kind, t.lexeme.toList)

/-- A token whose first character is at `place`: its span covers its lexeme, and its value is the
one that its lexeme stands for. -/
structure IsAt (t : Token) (place : Position) : Prop where
  span : t.span = ⟨place, place.after t.lexeme.toList⟩
  literal : Literal.ofLexeme? t.kind t.lexeme.toList = some t.literal

/-- Tokens one behind the other, the first at `place`. -/
def Placed : Position → List Token → Prop
  | _, [] => True
  | place, t :: tokens => t.IsAt place ∧ Placed t.span.stop tokens

theorem IsAt.eq {t u : Token} {place : Position} (h : t.IsAt place) (h' : u.IsAt place)
    (hp : t.piece = u.piece) : t = u := by
  obtain ⟨kind, lexeme, literal, span⟩ := t
  obtain ⟨kind', lexeme', literal', span'⟩ := u
  obtain ⟨rfl, hl⟩ := Prod.mk.inj hp
  obtain rfl : lexeme = lexeme' := String.toList_inj.mp hl
  obtain rfl : span = span' := h.span.trans h'.span.symm
  obtain rfl : literal = literal' := Option.some.inj (h.literal.symm.trans h'.literal)
  rfl

/-- Where its lexemes and the first place are known, so are the tokens. -/
theorem Placed.eq {place : Position} {tokens more : List Token} (h : Placed place tokens)
    (h' : Placed place more) (hp : tokens.map piece = more.map piece) : tokens = more := by
  induction tokens generalizing place more with
  | nil => exact (List.map_eq_nil_iff.mp hp.symm).symm
  | cons t tokens ih =>
    cases more with
    | nil => cases hp
    | cons u more =>
      obtain ⟨hfirst, hrest⟩ := List.cons.inj hp
      obtain rfl := h.1.eq h'.1 hfirst
      rw [ih h.2 h'.2 hrest]

/-- A lexeme makes a token at every place. -/
theorem exists_isAt {kind : TokenKind} {lexeme : List Char} (h : Spells kind lexeme)
    (place : Position) : ∃ t : Token, t.piece = (kind, lexeme) ∧ t.IsAt place := by
  obtain ⟨literal, hl, -⟩ := exists_denotes h
  exact ⟨⟨kind, String.ofList lexeme, literal, ⟨place, place.after lexeme⟩⟩,
    by simp [piece], by simp, by simpa using hl⟩

/-- A munch makes tokens at every place. -/
theorem exists_placed {text rest : List Char} {pieces : List (TokenKind × List Char)}
    (h : Munch text pieces rest) (place : Position) :
    ∃ tokens, tokens.map piece = pieces ∧ Placed place tokens := by
  induction h generalizing place with
  | done => exact ⟨[], rfl, trivial⟩
  | lexeme h _ ih =>
    obtain ⟨t, hp, ht⟩ := exists_isAt h.spells place
    obtain ⟨tokens, htokens, hplaced⟩ := ih t.span.stop
    exact ⟨t :: tokens, by rw [List.map_cons, hp, htokens], ht, hplaced⟩

theorem placed_append {place : Position} {tokens more : List Token} :
    Placed place (tokens ++ more) ↔ Placed place tokens ∧
      Placed (place.after (spelling (tokens.map piece))) more := by
  induction tokens generalizing place with
  | nil => simp [Placed]
  | cons t tokens ih =>
    rw [List.cons_append, Placed, Placed, ih, and_assoc]
    refine and_congr_right fun ht => ?_
    rw [List.map_cons, spelling_cons, Position.after_append, ht.span]
    exact Iff.rfl

/-! ## The first token of a text -/

variable {place : Position} {c : Char} {rest : List Char}

/-- **The first token** of a text is its longest lexeme, placed. -/
theorem first_append_iff {more behind : List Char} {t : Token} :
    Token.first place c (more ++ behind) = .ok (t, more.length) ↔
      IsLongest t.kind (c :: more) (c :: more ++ behind) ∧ t.lexeme.toList = c :: more ∧
        t.IsAt place := by
  rw [isLongest_iff_recognize]
  constructor
  · intro h
    unfold Token.first at h
    split at h
    · cases h
    · cases h
    · rename_i kind n hr
      dsimp only at h
      split at h
      · rename_i literal hl
        cases h
        rw [List.take_left] at hl ⊢
        exact ⟨hr, String.toList_ofList, ⟨by rw [String.toList_ofList],
          by rw [String.toList_ofList]; exact hl⟩⟩
      · cases h
  · rintro ⟨hr, hlexeme, ht⟩
    have hspan := ht.span
    have hliteral := ht.literal
    rw [hlexeme] at hspan hliteral
    unfold Token.first
    rw [hr]
    dsimp only
    rw [List.take_left, hliteral, ← hspan, ← hlexeme, String.ofList_toList]

theorem exists_append_of_first {t : Token} {n : Nat} (h : Token.first place c rest = .ok (t, n)) :
    ∃ more behind, rest = more ++ behind ∧ n = more.length := by
  unfold Token.first at h
  split at h
  · cases h
  · cases h
  · rename_i hr
    obtain ⟨more, behind, heq, hlen, -⟩ := found_of_recognize hr
    dsimp only at h
    split at h
    · cases h
      exact ⟨more, behind, heq, hlen⟩
    · cases h

/-- A first token is found where a lexeme is recognized. -/
theorem exists_first {more behind : List Char} {kind : TokenKind}
    (h : recognize c (more ++ behind) = .ok (kind, more.length)) (place : Position) :
    ∃ t : Token, Token.first place c (more ++ behind) = .ok (t, more.length) := by
  have hl := isLongest_of_recognize h
  obtain ⟨t, hp, ht⟩ := exists_isAt hl.spells place
  obtain ⟨rfl, hlexeme⟩ := Prod.mk.inj hp
  exact ⟨t, first_append_iff.mpr ⟨hl, hlexeme, ht⟩⟩

/-- **Two faults** can stop a run. That a numeral is refused is not one of them. -/
theorem first_eq_error_iff {e : ScanError} : Token.first place c rest = .error e ↔
    (recognize c rest = .error .unterminatedString ∧
      e = .unterminatedString ⟨place, place.after (c :: rest)⟩) ∨
    (recognize c rest = .error .unexpectedCharacter ∧
      e = .unexpectedCharacter c ⟨place, place.advance c⟩) := by
  cases hr : recognize c rest with
  | error fault =>
    unfold Token.first
    rw [hr]
    cases fault <;> simp [eq_comm]
  | ok found =>
    obtain ⟨kind, n⟩ := found
    obtain ⟨more, behind, rfl, rfl, -, -⟩ := found_of_recognize hr
    obtain ⟨t, ht⟩ := exists_first hr place
    simp [ht]

end Token

/-! ## Runs -/

namespace ScanRun

open Token

variable {place : Position} {text rest : List Char} {tokens : List Token}

/-- How a run ends where `rest` is left: at the end of the text, or with the error of the first
character. -/
def EndsAt (place : Position) : List Char → Except ScanError Position → Prop
  | [], outcome => outcome = .ok place
  | c :: rest, outcome => ∃ e, Token.first place c rest = .error e ∧ outcome = .error e

/-- **A munch and placed tokens are the beginning of a run**, which goes on where they end. -/
theorem startingAt_of_munch (hm : Munch text (tokens.map piece) rest) (hp : Placed place tokens) :
    startingAt place text =
      ⟨tokens ++ (startingAt (place.after (spelling (tokens.map piece))) rest).tokens,
        (startingAt (place.after (spelling (tokens.map piece))) rest).outcome⟩ := by
  induction tokens generalizing place text with
  | nil =>
    cases hm
    rfl
  | cons t tokens ih =>
    obtain ⟨tail, rfl, hl, ht⟩ := Munch.cons_iff.mp hm
    obtain ⟨c, more, hlexeme⟩ := List.exists_cons_of_ne_nil hl.spells.ne_nil
    have hstop : place.after (spelling ((t :: tokens).map piece)) =
        t.span.stop.after (spelling (tokens.map piece)) := by
      rw [List.map_cons, spelling_cons, Position.after_append, hp.1.span]
      rfl
    have hfirst : Token.first place c (more ++ tail) = .ok (t, more.length) :=
      first_append_iff.mpr ⟨by rwa [hlexeme] at hl, hlexeme, hp.1⟩
    rw [hstop, hlexeme, List.cons_append, startingAt_cons hfirst, List.drop_left, ih ht hp.2]
    rfl

/-- **Every run is a munch and placed tokens**, up to where it ends. -/
theorem exists_munch (place : Position) (text : List Char) :
    ∃ rest, Munch text ((startingAt place text).tokens.map piece) rest ∧
      Placed place (startingAt place text).tokens ∧
      EndsAt (place.after (spelling ((startingAt place text).tokens.map piece))) rest
        (startingAt place text).outcome := by
  fun_induction startingAt place text with
  | case1 place => exact ⟨[], .done, trivial, rfl⟩
  | case2 place c rest e he => exact ⟨c :: rest, .done, trivial, e, he, rfl⟩
  | case3 place c rest t n hfirst remaining ih =>
    obtain ⟨more, behind, hrest, rfl⟩ := exists_append_of_first hfirst
    have hdrop : rest.drop more.length = behind := by rw [hrest, List.drop_left]
    rw [hrest] at hfirst
    obtain ⟨hl, hlexeme, ht⟩ := first_append_iff.mp hfirst
    have hstop : place.after t.piece.2 = t.span.stop := by
      rw [ht.span]
      rfl
    obtain ⟨left, hm, hp, he⟩ := ih
    refine ⟨left, Munch.cons_iff.mpr ⟨rest.drop more.length, ?_, ?_, hm⟩, ⟨ht, hp⟩, ?_⟩
    · rw [hdrop, hlexeme, hrest]
      rfl
    · rw [hlexeme, hrest]
      exact hl
    · rw [List.map_cons, spelling_cons, Position.after_append, hstop]
      exact he

/-- **A run to the end** of a text is a munch of all of it, and placed tokens. -/
theorem startingAt_eq_ok_iff {stop : Position} :
    startingAt place text = ⟨tokens, .ok stop⟩ ↔
      Munch text (tokens.map piece) [] ∧ Placed place tokens ∧ stop = place.after text := by
  constructor
  · intro h
    obtain ⟨rest, hm, hp, he⟩ := exists_munch place text
    rw [h] at hm hp he
    cases rest with
    | nil =>
      refine ⟨hm, hp, ?_⟩
      rw [hm.eq_spelling]
      exact Except.ok.inj he
    | cons c rest =>
      obtain ⟨e, -, he⟩ := he
      cases he
  · rintro ⟨hm, hp, rfl⟩
    rw [startingAt_of_munch hm hp, ← hm.eq_spelling, startingAt_nil, List.append_nil]

/-- **A run to an error** is a munch up to a place where no token starts, and placed tokens. -/
theorem startingAt_eq_error_iff {e : ScanError} :
    startingAt place text = ⟨tokens, .error e⟩ ↔
      ∃ c rest, Munch text (tokens.map piece) (c :: rest) ∧ Placed place tokens ∧
        Token.first (place.after (spelling (tokens.map piece))) c rest = .error e := by
  constructor
  · intro h
    obtain ⟨rest, hm, hp, he⟩ := exists_munch place text
    rw [h] at hm hp he
    cases rest with
    | nil => cases he
    | cons c rest =>
      obtain ⟨e', hf, he⟩ := he
      cases he
      exact ⟨c, rest, hm, hp, hf⟩
  · rintro ⟨c, rest, hm, hp, hf⟩
    rw [startingAt_of_munch hm hp, startingAt_cons_error hf, List.append_nil]

/-- The run of a source, by what it comes to. -/
theorem startingAt_start {source : String} {outcome : Except ScanError Position}
    (h : (of source).outcome = outcome) :
    startingAt .start source.toList = ⟨(of source).tokens, outcome⟩ := by
  rw [← h]
  rfl

end ScanRun

/-! ## Scans -/

open Token

variable {source : String} {tokens : List Token} {e : ScanError}

theorem checkSourceLength_of_le {bytes : Nat} (h : bytes ≤ maxSourceLength) :
    checkSourceLength bytes = .ok () :=
  if_pos h

theorem checkSourceLength_of_lt {bytes : Nat} (h : maxSourceLength < bytes) :
    checkSourceLength bytes = .error (.sourceTooLarge bytes) :=
  if_neg (Nat.not_le.mpr h)

theorem scan_eq_map_of_le (h : Text.byteLength source.toList ≤ maxSourceLength) :
    scan source = (ScanRun.of source).outcome.map fun _ => (ScanRun.of source).tokens := by
  unfold scan
  rw [checkSourceLength_of_le h]

/-- A source over the size limit is refused. -/
theorem scan_of_large (h : maxSourceLength < Text.byteLength source.toList) :
    scan source = .error (.sourceTooLarge (Text.byteLength source.toList)) := by
  unfold scan
  rw [checkSourceLength_of_lt h]

theorem length_le_of_scan (h : scan source = .ok tokens) :
    Text.byteLength source.toList ≤ maxSourceLength := by
  by_contra hlong
  rw [scan_of_large (Nat.not_le.mp hlong)] at h
  cases h

/-- **A scan gives tokens** exactly when the source is munched to its end, and gives the munched
lexemes, placed. -/
theorem scan_eq_ok_iff : scan source = .ok tokens ↔
    Text.byteLength source.toList ≤ maxSourceLength ∧
      Munch source.toList (tokens.map piece) [] ∧ Placed .start tokens := by
  constructor
  · intro h
    have hle := length_le_of_scan h
    rw [scan_eq_map_of_le hle] at h
    cases ho : (ScanRun.of source).outcome with
    | error e =>
      rw [ho] at h
      cases h
    | ok stop =>
      rw [ho] at h
      cases h
      obtain ⟨hm, hp, -⟩ := ScanRun.startingAt_eq_ok_iff.mp (ScanRun.startingAt_start ho)
      exact ⟨hle, hm, hp⟩
  · rintro ⟨hle, hm, hp⟩
    have hrun := ScanRun.startingAt_eq_ok_iff.mpr ⟨hm, hp, rfl⟩
    rw [scan_eq_map_of_le hle, ScanRun.of, hrun]
    rfl

/-- **A scan fails** with the first error of its run. -/
theorem scan_eq_error_iff (h : Text.byteLength source.toList ≤ maxSourceLength) :
    scan source = .error e ↔ ∃ tokens c rest, Munch source.toList (tokens.map piece) (c :: rest) ∧
      Placed .start tokens ∧
      Token.first (Position.start.after (spelling (tokens.map piece))) c rest = .error e := by
  rw [scan_eq_map_of_le h]
  constructor
  · intro he
    cases ho : (ScanRun.of source).outcome with
    | error e' =>
      rw [ho] at he
      cases he
      exact ⟨_, ScanRun.startingAt_eq_error_iff.mp (ScanRun.startingAt_start ho)⟩
    | ok stop =>
      rw [ho] at he
      cases he
  · rintro ⟨tokens, he⟩
    rw [ScanRun.of, ScanRun.startingAt_eq_error_iff.mpr he]
    rfl

end LoxTokenizer
