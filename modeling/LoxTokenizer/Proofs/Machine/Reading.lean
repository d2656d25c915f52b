import LoxTokenizer.Proofs.Machine.Step
import LoxTokenizer.Proofs.Scan.FirstError
import LoxTokenizer.Proofs.Scan.Places

/-!
# The machine scans

What the machine has read is the tokens it has found and the beginning of one more. The stage tells
which beginning: `Stage.Reads`. That is the invariant of the machine, `Machine.Reading`, and each
step keeps it or ends the scan as `scan` does.

* **`Machine.Reading.sound`**: the step lemma. The next state is a reading again; or the scan is
  done, or has failed, as `scan` says; and there is no panic.
* **`Machine.exists_reading`**: every state that is reached is a reading.
* **`Machine.result_eq`**, `Machine.resultWithEof_eq`: the machine answers what `scan` and
  `scanWithEof` answer, for every source.
-/

namespace LoxTokenizer

open Lexeme Token CharClass

/-- The inside of a string ends one byte before the string does. -/
theorem Text.byteLength_quoted (body : List Char) :
    byteLength ('"' :: (body ++ ['"'])) - 1 = byteLength (['"'] ++ body) := by
  have hquote : byteLength ['"'] = 1 := rfl
  rw [← List.singleton_append, ← List.append_assoc, byteLength_append (['"'] ++ body), hquote,
    Nat.add_sub_cancel]

/-- **No count leaves its word**: the bytes up to the next character and the character itself are
within the size limit, and lines and columns are no more than one ahead of the bytes. -/
theorem Position.fits_start_after {before rest : List Char} {c : Char}
    (hle : Text.byteLength (before ++ c :: rest) ≤ maxSourceLength) :
    (Position.start.after before).Fits c := by
  have hsize := c.utf8Size_pos
  have hlimit : maxSourceLength + 1 < wordLimit := by decide
  have hline := Position.line_start_after_le before
  have hcolumn := Position.column_start_after_le before
  rw [Text.byteLength_append, ← Position.offset_start_after before, Text.byteLength_cons] at hle
  exact ⟨by omega, by omega, by omega⟩

/-! ## The beginning of a token -/

namespace Stage

/-- **What has been read of a token** in a stage, with the text that is left. -/
inductive Reads : Stage → List Char → List Char → Prop where
  | unread {rest : List Char} : Reads .unread [] rest
  | between {rest : List Char} : Reads .between [] rest
  | opened {c : Char} {rest : List Char} : Reads (.opened c) [c] rest
  | operator {c : Char} {single double : TokenKind} {rest : List Char}
      (h : Operator c single double) : Reads (.operator single double) [c] rest
  | secondSlash {rest : List Char} : Reads .secondSlash ['/'] ('/' :: rest)
  | comment {body rest : List Char} (h : ∀ c ∈ body, c ≠ '\n') :
      Reads .comment ('/' :: '/' :: body) rest
  | string {body rest : List Char} (h : ∀ c ∈ body, c ≠ '"') : Reads .string ('"' :: body) rest
  | whole {digits rest : List Char} (h : Digits digits) : Reads .whole digits rest
  /-- A point is read only if a digit comes behind it. -/
  | fraction {whole digits rest : List Char} (hw : Digits whole)
      (hf : ∀ c ∈ digits, isDigit c = true)
      (hnext : digits = [] → ∃ c ∈ rest.head?, isDigit c = true) :
      Reads .fraction (whole ++ '.' :: digits) rest
  | word {c : Char} {more rest : List Char} (hc : isWordStart c = true)
      (h : ∀ d ∈ more, isWordPart d = true) : Reads .word (c :: more) rest
  | complete {kind : TokenKind} {lexeme rest : List Char} (h : Spells kind lexeme)
      (hx : ¬ Extends kind lexeme rest) : Reads (.complete kind) lexeme rest

variable {c : Char} {rest : List Char} {s : Stage}

theorem reads_of_behind? (h : behind? c rest.head? = some s) : s.Reads [c] rest := by
  unfold behind? at h
  split at h
  case h_1 => cases h; exact .operator .bang
  case h_2 => cases h; exact .operator .equal
  case h_3 => cases h; exact .operator .less
  case h_4 => cases h; exact .operator .greater
  case h_5 => cases h; exact .string (by simp)
  case h_6 =>
    by_cases hslash : c = '/' ∧ rest.head? = some '/'
    · rw [if_pos hslash] at h
      cases h
      obtain ⟨rfl, hs⟩ := hslash
      obtain ⟨behind, rfl⟩ := List.head?_eq_some_iff.mp hs
      exact .secondSlash
    · rw [if_neg hslash] at h
      by_cases hdigit : isDigit c = true
      · rw [if_pos hdigit] at h
        cases h
        exact .whole ⟨by simp, by simpa using hdigit⟩
      · rw [if_neg hdigit] at h
        by_cases hword : isWordStart c = true
        · rw [if_pos hword] at h
          cases h
          exact .word hword (by simp)
        · rw [if_neg hword] at h
          obtain ⟨kind, hp, rfl⟩ := Option.map_eq_some_iff.mp h
          exact .complete (.punctuation hp) fun hx => hslash ((extends_punctuation_iff hp).mp hx)

/-- A character that leads to no stage starts no lexeme. -/
theorem startsNone_of_behind? {next : Option Char} (h : behind? c next = none) : StartsNone c := by
  unfold behind? at h
  split at h
  case h_6 _ hbang hequal hless hgreater hquote =>
    by_cases hslash : c = '/' ∧ next = some '/'
    · rw [if_pos hslash] at h
      cases h
    · rw [if_neg hslash] at h
      by_cases hdigit : isDigit c = true
      · rw [if_pos hdigit] at h
        cases h
      · rw [if_neg hdigit] at h
        by_cases hword : isWordStart c = true
        · rw [if_pos hword] at h
          cases h
        · rw [if_neg hword] at h
          refine ⟨?_, by simp [isWordPart, hdigit, hword], Option.map_eq_none_iff.mp h⟩
          simp only [List.mem_cons, List.not_mem_nil, or_false, not_or]
          exact ⟨hquote, hbang, hequal, hless, hgreater⟩
  all_goals cases h

end Stage

namespace Machine

variable {source : String} {m : Machine} {lexeme : List Char}

/-! ## The invariant -/

/-- The text of the tokens found. -/
def before (m : Machine) : List Char :=
  spelling (m.tokens.map piece)

/-- **A reading** of a source: longest lexemes taken off it and made into tokens, and behind them
`lexeme`, the beginning of the next one. -/
structure Reading (source : String) (m : Machine) (lexeme : List Char) : Prop where
  text : m.cursor.source = source.toList
  munch : Munch source.toList (m.tokens.map piece) (lexeme ++ m.cursor.rest)
  placed : Placed .start m.tokens
  start : m.start = Position.start.after m.before
  place : m.cursor.place = m.start.after lexeme
  reads : m.stage.Reads lexeme m.cursor.rest

/-- A step is sound: it leads to a reading, or ends as the scan of the source does. -/
def Step.Sound (source : String) (m : Machine) : Step → Prop
  | .next m' => ∃ lexeme, m'.Reading source lexeme
  | .done => scan source = .ok m.tokens ∧ m.cursor.source = source.toList ∧
      m.cursor.place = Position.start.after source.toList
  | .failed e => scan source = .error e
  | .panic _ => False

theorem reading_of (source : String) : (Machine.of source).Reading source [] :=
  ⟨rfl, .done, trivial, rfl, rfl, .unread⟩

namespace Reading

theorem toList_eq (h : m.Reading source lexeme) :
    source.toList = m.before ++ lexeme ++ m.cursor.rest := by
  rw [List.append_assoc]
  exact h.munch.eq_append

theorem place_eq (h : m.Reading source lexeme) :
    m.cursor.place = Position.start.after (m.before ++ lexeme) := by
  rw [h.place, h.start, ← Position.after_append]

theorem start_offset (h : m.Reading source lexeme) :
    m.start.offset = Text.byteLength m.before := by
  rw [h.start, Position.offset_start_after]

theorem place_offset (h : m.Reading source lexeme) :
    m.cursor.place.offset = Text.byteLength (m.before ++ lexeme) := by
  rw [h.place_eq, Position.offset_start_after]

/-- The machine cuts out what it has read. -/
theorem lexeme?_eq (h : m.Reading source lexeme) : m.lexeme? = some lexeme := by
  unfold lexeme? Cursor.sliceFrom?
  rw [h.text, h.start_offset, h.place_offset, h.toList_eq]
  exact Text.slice?_append _ _ _

theorem span_eq (h : m.Reading source lexeme) :
    m.span = ⟨Position.start.after m.before, Position.start.after (m.before ++ lexeme)⟩ := by
  unfold span
  rw [h.start, h.place_eq]

/-- So a reading counts within words. -/
theorem fits (h : m.Reading source lexeme)
    (hle : Text.byteLength source.toList ≤ maxSourceLength) {c : Char}
    (hc : m.cursor.peek? = some c) : m.cursor.place.Fits c := by
  obtain ⟨rest, hrest⟩ := List.head?_eq_some_iff.mp hc
  rw [h.toList_eq, hrest] at hle
  rw [h.place_eq]
  exact Position.fits_start_after hle

/-! ## What a step may do, done by a reading -/

section Sound

variable {stage : Stage} {c : Char} {rest : List Char}

theorem sound_goto (h : m.Reading source lexeme) (hr : stage.Reads lexeme m.cursor.rest) :
    (m.goto stage).Sound source m :=
  ⟨lexeme, h.text, h.munch, h.placed, h.start, h.place, hr⟩

theorem sound_take (h : m.Reading source lexeme)
    (hle : Text.byteLength source.toList ≤ maxSourceLength) (hrest : m.cursor.rest = c :: rest)
    (hr : stage.Reads (lexeme ++ [c]) rest) : (m.take stage).Sound source m := by
  have hexact := Cursor.skip?_eq fun c hc => h.fits hle hc
  have hskip : m.cursor.skip = ⟨m.cursor.source, rest, m.cursor.place.advance c⟩ := by
    unfold Cursor.skip
    rw [hrest]
  have hplace : m.cursor.place.advance c = m.start.after (lexeme ++ [c]) := by
    rw [Position.after_append, ← h.place]
    rfl
  have hmunch : Munch source.toList (m.tokens.map piece) (lexeme ++ [c] ++ rest) := by
    have := h.munch
    rwa [hrest, List.append_cons] at this
  unfold take
  rw [hexact, hskip]
  exact ⟨lexeme ++ [c], h.text, hmunch, h.placed, h.start, hplace, hr⟩

theorem sound_takeWhile {p : Char → Bool} {otherwise : Step} (h : m.Reading source lexeme)
    (hle : Text.byteLength source.toList ≤ maxSourceLength)
    (htake : ∀ c rest, p c = true → m.stage.Reads (lexeme ++ [c]) rest)
    (hstop : (∀ c ∈ m.cursor.rest.head?, p c = false) → otherwise.Sound source m) :
    (m.takeWhile p otherwise).Sound source m := by
  unfold takeWhile Cursor.peek?
  cases hrest : m.cursor.rest with
  | nil => exact hstop (by simp [hrest])
  | cons c rest =>
    by_cases hc : p c = true
    · rw [if_pos (by simpa using hc)]
      exact h.sound_take hle hrest (htake c rest hc)
    · rw [if_neg (by simpa using hc)]
      exact hstop (by simpa [hrest] using hc)

theorem sound_withLexeme {use : List Char → Step} (h : m.Reading source lexeme)
    (hu : (use lexeme).Sound source m) : (m.withLexeme use).Sound source m := by
  unfold withLexeme
  rw [h.lexeme?_eq]
  exact hu

/-- The loop goes on behind tokens that end at the cursor. -/
theorem sound_loop {tokens : List Token} (htext : m.cursor.source = source.toList)
    (hm : Munch source.toList (tokens.map piece) m.cursor.rest) (hp : Placed .start tokens)
    (hplace : m.cursor.place = Position.start.after (spelling (tokens.map piece))) :
    (m.loop tokens).Sound source m :=
  ⟨[], htext, hm, hp, hplace, rfl, .between⟩

end Sound

/-! ## The end of a token -/

/-- Where a lexeme is complete, the slice for its value is there, and gives its value. -/
theorem exists_body {kind : TokenKind} (h : Spells kind lexeme) :
    ∃ body literal, body? kind lexeme = some body ∧ literal? kind body = some literal ∧
      Literal.ofLexeme? kind lexeme = some literal := by
  obtain ⟨literal, hvalue, hdenotes⟩ := exists_denotes h
  cases hdenotes with
  | number hn => exact ⟨lexeme, _, rfl, by simp [literal?, hn], hvalue⟩
  | string body =>
    have hslice := Text.slice?_append ['"'] body ['"']
    rw [← Text.byteLength_quoted] at hslice
    exact ⟨body, _, hslice, rfl, hvalue⟩
  | comment body =>
    have hslice := Text.slice?_append ['/', '/'] body []
    rw [List.append_nil] at hslice
    exact ⟨body, _, hslice, rfl, hvalue⟩
  | other hk =>
    refine ⟨lexeme, _, ?_, ?_, hvalue⟩
    · unfold body?
      split
      · exact absurd rfl hk.2.2
      · exact absurd rfl hk.2.1
      · rfl
    · unfold literal?
      split
      · exact absurd rfl hk.1
      · exact absurd rfl hk.2.1
      · exact absurd rfl hk.2.2
      · rfl

theorem sound_emit {kind : TokenKind} (h : m.Reading source lexeme) (hs : Spells kind lexeme)
    (hx : ¬ Extends kind lexeme m.cursor.rest) : (m.emit kind).Sound source m := by
  obtain ⟨body, literal, hbody, hliteral, hvalue⟩ := exists_body hs
  set t : Token := ⟨kind, String.ofList lexeme, literal, m.span⟩ with ht
  have hpiece : t.piece = (kind, lexeme) := by simp [ht, piece]
  have hat : t.IsAt m.start := by
    constructor
    · show m.span = _
      rw [ht, String.toList_ofList, ← h.place]
      rfl
    · rw [ht, String.toList_ofList]
      exact hvalue
  have hpieces : (m.tokens ++ [t]).map piece = m.tokens.map piece ++ [(kind, lexeme)] := by
    simp [hpiece]
  refine h.sound_withLexeme ?_
  rw [hbody]
  dsimp only
  rw [hliteral]
  refine sound_loop h.text ?_ ?_ ?_
  · rw [hpieces]
    exact h.munch.trans (.lexeme ((isLongest_append_iff hs).mpr hx) .done)
  · refine placed_append.mpr ⟨h.placed, ?_, trivial⟩
    have hstart := h.start
    unfold before at hstart
    rw [← hstart]
    exact hat
  · rw [hpieces, spelling_append, h.place_eq]
    simp [before]

/-- A fault at the first character behind the tokens found is the error of the scan. -/
theorem scan_eq_error {c : Char} {more : List Char} {e : ScanError}
    (h : m.Reading source (c :: more)) (hle : Text.byteLength source.toList ≤ maxSourceLength)
    (hf : FaultAt m.before c (more ++ m.cursor.rest) e) : scan source = .error e :=
  (scan_eq_error_iff hle).mpr
    ⟨m.tokens, c, _, h.munch, h.placed, first_eq_error_iff_faultAt.mpr hf⟩

/-! ## The step, stage by stage -/

section Stages

variable (hle : Text.byteLength source.toList ≤ maxSourceLength)

include hle

theorem sound_unread (h : m.Reading source []) (hstage : m.stage = .unread) :
    m.step.Sound source m := by
  have hcheck : checkSourceLength (Text.byteLength m.cursor.source) = .ok () := by
    rw [h.text]
    exact checkSourceLength_of_le hle
  unfold step
  rw [hstage]
  dsimp only
  rw [hcheck]
  exact sound_loop h.text h.munch h.placed (h.place.trans h.start)

theorem sound_between (h : m.Reading source []) (hstage : m.stage = .between) :
    m.step.Sound source m := by
  unfold step Cursor.peek?
  rw [hstage]
  dsimp only
  cases hnext : m.cursor.rest with
  | nil =>
    have hm := h.munch
    have hsource := h.toList_eq
    rw [hnext] at hm hsource
    refine ⟨scan_eq_ok_iff.mpr ⟨hle, hm, h.placed⟩, h.text, ?_⟩
    rw [h.place_eq, hsource, List.append_nil, List.append_nil]
  | cons c rest => exact h.sound_take hle hnext .opened

theorem sound_opened {c : Char} (h : m.Reading source [c]) (hstage : m.stage = .opened c) :
    m.step.Sound source m := by
  unfold step
  rw [hstage]
  dsimp only
  cases hs : Stage.behind? c m.cursor.peek? with
  | none =>
    refine h.scan_eq_error hle ?_
    rw [h.span_eq]
    exact .unexpectedCharacter (Stage.startsNone_of_behind? hs)
  | some stage => exact h.sound_goto (Stage.reads_of_behind? hs)

theorem sound_operator {c : Char} {single double : TokenKind} (h : m.Reading source [c])
    (hstage : m.stage = .operator single double) (ho : Operator c single double) :
    m.step.Sound source m := by
  unfold step
  rw [hstage]
  dsimp only
  by_cases hequal : m.cursor.peek? = some '='
  · rw [if_pos hequal]
    obtain ⟨behind, hnext⟩ := List.head?_eq_some_iff.mp hequal
    exact h.sound_take hle hnext (.complete (.operatorEqual ho) (not_extends_double ho))
  · rw [if_neg hequal]
    refine h.sound_goto (.complete (.operator ho) ?_)
    cases ho <;> exact hequal

theorem sound_comment {body : List Char} (h : m.Reading source ('/' :: '/' :: body))
    (hstage : m.stage = .comment) (hbody : ∀ c ∈ body, c ≠ '\n') : m.step.Sound source m := by
  unfold step
  rw [hstage]
  refine h.sound_takeWhile hle (fun c rest hc => ?_) fun hstop => h.sound_goto ?_
  · rw [hstage]
    exact .comment (forall_mem_concat hbody (by simpa using hc))
  · refine .complete (.comment hbody) ?_
    rintro ⟨c, hc, hne⟩
    exact absurd (hstop c hc) (by simpa using hne)

theorem sound_string {body : List Char} (h : m.Reading source ('"' :: body))
    (hstage : m.stage = .string) (hbody : ∀ c ∈ body, c ≠ '"') : m.step.Sound source m := by
  unfold step
  rw [hstage]
  refine h.sound_takeWhile hle (fun c rest hc => ?_) fun hstop => ?_
  · rw [hstage]
    exact .string (forall_mem_concat hbody (by simpa using hc))
  · by_cases hquote : m.cursor.peek? = some '"'
    · rw [if_pos hquote]
      obtain ⟨behind, hnext⟩ := List.head?_eq_some_iff.mp hquote
      exact h.sound_take hle hnext (.complete (.string hbody) not_extends_string)
    · rw [if_neg hquote]
      -- The run stopped, but at no quote, so it has come to the end of the source.
      have hend : m.cursor.rest = [] := by
        cases hnext : m.cursor.rest with
        | nil => rfl
        | cons c behind =>
          have hc : c = '"' := by simpa using hstop c (by simp [hnext])
          exact absurd (by simp [Cursor.peek?, hnext, hc]) hquote
      refine h.scan_eq_error hle ?_
      rw [h.span_eq, hend, List.append_nil]
      exact .unterminatedString fun hm => hbody '"' hm rfl

theorem sound_whole (h : m.Reading source lexeme) (hstage : m.stage = .whole)
    (hdigits : Digits lexeme) : m.step.Sound source m := by
  unfold step
  rw [hstage]
  refine h.sound_takeWhile hle (fun c rest hc => ?_) fun hstop => ?_
  · rw [hstage]
    exact .whole (hdigits.concat hc)
  · by_cases hpoint : m.cursor.peek? = some '.' ∧ m.cursor.peekNext?.any isDigit = true
    · rw [if_pos hpoint]
      obtain ⟨behind, hnext⟩ := List.head?_eq_some_iff.mp hpoint.1
      refine h.sound_take hle hnext (.fraction hdigits (by simp) fun _ => ?_)
      have hdigit := hpoint.2
      unfold Cursor.peekNext? at hdigit
      rw [hnext] at hdigit
      cases behind with
      | nil => cases hdigit
      | cons d behind => exact ⟨d, rfl, by simpa using hdigit⟩
    · rw [if_neg hpoint]
      refine h.sound_goto (.complete (.whole hdigits) ?_)
      rintro (⟨d, hd, hdigit⟩ | ⟨-, d, behind, hnext, hdigit⟩)
      · exact absurd hdigit (by simp [hstop d hd])
      · exact hpoint (by simp [Cursor.peek?, Cursor.peekNext?, hnext, hdigit])

theorem sound_fraction {whole digits : List Char} (h : m.Reading source (whole ++ '.' :: digits))
    (hstage : m.stage = .fraction) (hw : Digits whole) (hf : ∀ c ∈ digits, isDigit c = true)
    (hfirst : digits = [] → ∃ c ∈ m.cursor.rest.head?, isDigit c = true) :
    m.step.Sound source m := by
  unfold step
  rw [hstage]
  refine h.sound_takeWhile hle (fun c rest hc => ?_) fun hstop => h.sound_goto ?_
  · rw [hstage, List.append_assoc]
    exact .fraction hw (forall_mem_concat hf hc) (by simp)
  · -- The point was taken because of the digit behind it, and the run took that digit.
    have hne : digits ≠ [] := by
      intro hnil
      obtain ⟨d, hd, hdigit⟩ := hfirst hnil
      exact absurd hdigit (by simp [hstop d hd])
    refine .complete (.decimal hw ⟨hne, hf⟩) ?_
    rintro (⟨d, hd, hdigit⟩ | ⟨hno, -⟩)
    · exact absurd hdigit (by simp [hstop d hd])
    · exact hno (by simp)

theorem sound_word {c : Char} {more : List Char} (h : m.Reading source (c :: more))
    (hstage : m.stage = .word) (hc : isWordStart c = true)
    (hmore : ∀ d ∈ more, isWordPart d = true) : m.step.Sound source m := by
  unfold step
  rw [hstage]
  refine h.sound_takeWhile hle (fun d rest hd => ?_) fun hstop => ?_
  · rw [hstage]
    exact .word hc (forall_mem_concat hmore hd)
  · refine h.sound_withLexeme (h.sound_goto (.complete (.word rfl hc hmore) fun hx => ?_))
    obtain ⟨d, hd, hpart⟩ := (extends_word (wordKind_identifier_or_keyword (c :: more))).mp hx
    exact absurd hpart (by simp [hstop d hd])

/-- **The step lemma.** A step of a reading within the size limit is sound. -/
theorem sound (h : m.Reading source lexeme) : m.step.Sound source m := by
  have hreads := h.reads
  generalize hstage : m.stage = stage at hreads
  generalize hrest : m.cursor.rest = rest at hreads
  cases hreads with
  | unread => exact h.sound_unread hle hstage
  | between => exact h.sound_between hle hstage
  | opened => exact h.sound_opened hle hstage
  | operator ho => exact h.sound_operator hle hstage ho
  | secondSlash =>
    unfold step
    rw [hstage]
    exact h.sound_take hle hrest (.comment (by simp))
  | comment hbody => exact h.sound_comment hle hstage hbody
  | string hbody => exact h.sound_string hle hstage hbody
  | whole hdigits => exact h.sound_whole hle hstage hdigits
  | fraction hw hf hfirst =>
    rw [← hrest] at hfirst
    exact h.sound_fraction hle hstage hw hf hfirst
  | word hc hmore => exact h.sound_word hle hstage hc hmore
  | complete hs hx =>
    rw [← hrest] at hx
    unfold step
    rw [hstage]
    exact h.sound_emit hs hx

end Stages

end Reading

/-! ## Runs -/

/-- **Every state that is reached is a reading.** -/
theorem exists_reading (hle : Text.byteLength source.toList ≤ maxSourceLength)
    (h : Reached source m) : ∃ lexeme, m.Reading source lexeme := by
  induction h with
  | refl => exact ⟨[], reading_of source⟩
  | @tail m m' _ hstep ih =>
    obtain ⟨lexeme, hreading⟩ := ih
    have hsound := hreading.sound hle
    rw [hstep] at hsound
    exact hsound

/-- A run from a reading ends, without a panic, as the scan does. -/
theorem Reading.run_eq (h : m.Reading source lexeme)
    (hle : Text.byteLength source.toList ≤ maxSourceLength) :
    (∃ last, m.run = .ok (.ok last) ∧ scan source = .ok last.tokens ∧
      last.cursor.source = source.toList ∧
      last.cursor.place = Position.start.after source.toList) ∨
    ∃ e, m.run = .ok (.error e) ∧ scan source = .error e := by
  fun_induction Machine.run m generalizing lexeme with
  | case1 m m' hstep ih =>
    have hsound := h.sound hle
    rw [hstep] at hsound
    obtain ⟨lexeme', h'⟩ := hsound
    exact ih h'
  | case2 m hstep =>
    have hsound := h.sound hle
    rw [hstep] at hsound
    exact Or.inl ⟨m, rfl, hsound⟩
  | case3 m e hstep =>
    have hsound := h.sound hle
    rw [hstep] at hsound
    exact Or.inr ⟨e, rfl, hsound⟩
  | case4 m p hstep =>
    have hsound := h.sound hle
    rw [hstep] at hsound
    exact hsound.elim

/-! ## Sources over the size limit -/

/-- The first step refuses a source over the limit. -/
theorem step_of_large (h : maxSourceLength < Text.byteLength source.toList) :
    (Machine.of source).step = .failed (.sourceTooLarge (Text.byteLength source.toList)) := by
  have hcheck := checkSourceLength_of_lt h
  simp only [step, Machine.of, Cursor.of, hcheck]

theorem run_of_large (h : maxSourceLength < Text.byteLength source.toList) :
    (Machine.of source).run = .ok (.error (.sourceTooLarge (Text.byteLength source.toList))) := by
  have hstep := step_of_large h
  unfold run
  split
  case h_3 e hfailed =>
    rw [hstep] at hfailed
    cases hfailed
    rfl
  all_goals
    rename_i hother
    rw [hstep] at hother
    cases hother

/-! ## The answers -/

/-- **The machine scans**: it answers as `scan` does, without a panic. -/
theorem result_eq (source : String) : result source = .ok (scan source) := by
  unfold result
  by_cases hle : Text.byteLength source.toList ≤ maxSourceLength
  · rcases (reading_of source).run_eq hle with ⟨last, hrun, hscan, -⟩ | ⟨e, hrun, hscan⟩
    · rw [hrun, hscan]
      rfl
    · rw [hrun, hscan]
      rfl
  · rw [run_of_large (Nat.not_le.mp hle), scan_of_large (Nat.not_le.mp hle)]
    rfl

theorem resultWithEof_eq (source : String) :
    resultWithEof source = .ok (scanWithEof source) := by
  rw [scanWithEof_eq_map]
  unfold resultWithEof
  by_cases hle : Text.byteLength source.toList ≤ maxSourceLength
  · rcases (reading_of source).run_eq hle with
      ⟨last, hrun, hscan, htext, hplace⟩ | ⟨e, hrun, hscan⟩
    · have hoffset := Position.offset_start_after source.toList
      rw [hrun, hscan, ← hplace]
      rw [← hplace, ← htext] at hoffset
      show Except.ok (Except.ok (last.tokens ++ [Token.eof
        ⟨last.cursor.place.line, last.cursor.place.column, _⟩])) = _
      rw [← hoffset]
      rfl
    · rw [hrun, hscan]
      rfl
  · rw [run_of_large (Nat.not_le.mp hle), scan_of_large (Nat.not_le.mp hle)]
    rfl

end Machine

end LoxTokenizer
