import LoxTokenizer.Cursor
import LoxTokenizer.Scan
import Mathlib.Logic.Relation

/-!
# A scan as a machine

`scan` takes a whole lexeme at a time and counts without a bound. Here a scan goes character by
character: a machine moves a cursor through the source, counts in words of 32 bits, and cuts
lexemes out of the source at the byte offsets it has counted. It stops short where a count leaves
its word, or where there is no cut at an offset; these stops are its panics.

* `Machine.step`: one step, by the `Stage` that the token being read is in.
* `Machine.Reached source`: the states of the machine on a source.
* **`Machine.advances_step`**: what a step does to the cursor. It takes the next character, or it
  leaves the cursor and goes on to a lower stage.
* `Machine.run`: all steps; it ends because of that.
* `Machine.result`, `Machine.resultWithEof`: the two answers a caller asks for, or a panic.
-/

namespace LoxTokenizer

open CharClass

/-! ## Counting in words -/

/-- The least number that does not fit in a word of 32 bits. -/
def wordLimit : Nat := 0x100000000

/-- A sum, if it fits in a word. -/
def addWord? (a b : Nat) : Option Nat :=
  if a + b < wordLimit then some (a + b) else none

/-- The place after one more character, if its counts fit in words. -/
def Position.advance? (p : Position) (c : Char) : Option Position :=
  (addWord? p.offset c.utf8Size).bind fun offset =>
    if c = '\n' then (addWord? p.line 1).map fun line => ⟨line, 1, offset⟩
    else (addWord? p.column 1).map fun column => ⟨p.line, column, offset⟩

/-- The sums that take a place past a character fit in words. -/
structure Position.Fits (p : Position) (c : Char) : Prop where
  offset : p.offset + c.utf8Size < wordLimit
  line : p.line + 1 < wordLimit
  column : p.column + 1 < wordLimit

/-- Where the sums fit, the words hold what is counted. -/
theorem Position.Fits.advance?_eq {p : Position} {c : Char} (h : p.Fits c) :
    p.advance? c = some (p.advance c) := by
  have hoffset : addWord? p.offset c.utf8Size = some (p.offset + c.utf8Size) := if_pos h.offset
  have hline : addWord? p.line 1 = some (p.line + 1) := if_pos h.line
  have hcolumn : addWord? p.column 1 = some (p.column + 1) := if_pos h.column
  unfold advance? advance
  rw [hoffset, hline, hcolumn]
  by_cases hc : c = '\n'
  · simp [hc]
  · simp [hc]

theorem Position.offset_of_advance? {p q : Position} {c : Char} (h : p.advance? c = some q) :
    q.offset = p.offset + c.utf8Size := by
  obtain ⟨offset, hoffset, hq⟩ := Option.bind_eq_some_iff.mp h
  have hsum : offset = p.offset + c.utf8Size := by
    unfold addWord? at hoffset
    split at hoffset
    · exact (Option.some.inj hoffset).symm
    · cases hoffset
  split at hq
  all_goals
    obtain ⟨count, -, rfl⟩ := Option.map_eq_some_iff.mp hq
    exact hsum

/-- The cursor after the next character, if there is one and its counts fit in words. -/
def Cursor.skip? (k : Cursor) : Option Cursor :=
  match k.rest with
  | [] => some k
  | c :: rest => (k.place.advance? c).map fun place => { k with rest := rest, place := place }

/-- Where the sums fit, a cursor that counts in words goes on as one that counts without a bound. -/
theorem Cursor.skip?_eq {k : Cursor} (h : ∀ c, k.peek? = some c → k.place.Fits c) :
    k.skip? = some k.skip := by
  unfold skip? skip
  cases hrest : k.rest with
  | nil => rfl
  | cons c rest =>
    have hfits := h c (by simp [peek?, hrest])
    dsimp only
    rw [hfits.advance?_eq]
    rfl

/-! ## The machine -/

/-- How far the token being read has got. -/
inductive Stage where
  /-- The source has not been looked at. -/
  | unread
  /-- No token is being read. -/
  | between
  /-- The first character has been read. -/
  | opened (c : Char)
  /-- An operator has been read that an equals sign may complete. -/
  | operator (single double : TokenKind)
  /-- The first of the two slashes of a comment has been read. -/
  | secondSlash
  | comment
  | string
  /-- The digits of a number are being read, up to a point. -/
  | whole
  /-- The point of a number has been read. -/
  | fraction
  | word
  /-- The last character has been read. -/
  | complete (kind : TokenKind)
  deriving DecidableEq, Repr

namespace Stage

/-- The stage behind the first character of a token, with the character that comes next. -/
def behind? (c : Char) (next : Option Char) : Option Stage :=
  match c with
  | '!' => some (.operator .bang .bangEqual)
  | '=' => some (.operator .equal .equalEqual)
  | '<' => some (.operator .less .lessEqual)
  | '>' => some (.operator .greater .greaterEqual)
  | '"' => some .string
  | c =>
    if c = '/' ∧ next = some '/' then some .secondSlash
    else if isDigit c then some .whole
    else if isWordStart c then some .word
    else (TokenKind.punctuation? c).map .complete

/-- Each stage leads to lower ones for as long as no character is read. -/
def rank : Stage → Nat
  | .between => 0
  | .unread | .complete _ => 1
  | .operator _ _ | .comment | .string | .whole | .fraction | .word => 2
  | .secondSlash => 3
  | .opened _ => 4

theorem rank_le (s : Stage) : s.rank ≤ 4 := by
  cases s <;> simp [rank]

/-- Every stage behind a first character is a lower one. -/
theorem rank_lt_of_behind? {c : Char} {next : Option Char} {s : Stage}
    (h : behind? c next = some s) : s.rank < 4 := by
  unfold behind? at h
  split at h
  case h_6 =>
    split at h
    · cases h
      decide
    · split at h
      · cases h
        decide
      · split at h
        · cases h
          decide
        · obtain ⟨kind, -, rfl⟩ := Option.map_eq_some_iff.mp h
          simp [rank]
  all_goals
    cases h
    decide

end Stage

/-- Why a step cannot be made. -/
inductive Panic where
  /-- A count does not fit in its word. -/
  | overflow
  /-- There is no cut at an end of a slice, or the ends are not in order. -/
  | badSlice
  deriving DecidableEq, Repr

/-- A state of a scan: the stage of the token being read, where that token starts, the cursor, and
the tokens found. -/
structure Machine where
  stage : Stage
  start : Position
  cursor : Cursor
  tokens : List Token
  deriving DecidableEq, Repr

namespace Machine

/-- What a step leads to. -/
inductive Step where
  | next (m : Machine)
  /-- The source has been read. -/
  | done
  | failed (e : ScanError)
  | panic (p : Panic)
  deriving DecidableEq, Repr

/-- The state before anything is read. -/
def of (source : String) : Machine :=
  ⟨.unread, .start, .of source.toList, []⟩

/-- The stretch of text from the start of the token to the cursor. -/
def span (m : Machine) : Span :=
  ⟨m.start, m.cursor.place⟩

/-- The text from the start of the token to the cursor. -/
def lexeme? (m : Machine) : Option (List Char) :=
  m.cursor.sliceFrom? m.start.offset

/-! ## What a step may do -/

/-- Goes on to another stage. -/
def goto (m : Machine) (stage : Stage) : Step :=
  .next { m with stage := stage }

/-- Takes the next character and goes on to another stage. -/
def take (m : Machine) (stage : Stage) : Step :=
  match m.cursor.skip? with
  | some cursor => .next { m with stage := stage, cursor := cursor }
  | none => .panic .overflow

/-- Takes the next character if it meets a condition, and stays in its stage. -/
def takeWhile (m : Machine) (p : Char → Bool) (otherwise : Step) : Step :=
  if m.cursor.peek?.any p then m.take m.stage else otherwise

/-- Cuts out the lexeme. -/
def withLexeme (m : Machine) (use : List Char → Step) : Step :=
  match m.lexeme? with
  | some lexeme => use lexeme
  | none => .panic .badSlice

/-- Looks for a token from here on. -/
def loop (m : Machine) (tokens : List Token) : Step :=
  .next { m with stage := .between, start := m.cursor.place, tokens := tokens }

/-- The part of a lexeme that its value is made of: the inside of a string, a comment without its
slashes. -/
def body? (kind : TokenKind) (lexeme : List Char) : Option (List Char) :=
  match kind with
  | .comment => Text.slice? lexeme 2 (Text.byteLength lexeme)
  | .string => Text.slice? lexeme 1 (Text.byteLength lexeme - 1)
  | _ => some lexeme

/-- The value that is made of that part. -/
def literal? (kind : TokenKind) (body : List Char) : Option Literal :=
  match kind with
  | .number => (Numeral.read? body).map fun n => .number n.toBinary64
  | .string | .comment => some (.text (String.ofList body))
  | _ => some (.lexeme (String.ofList body))

/-- Makes the token and looks for the next one. -/
def emit (m : Machine) (kind : TokenKind) : Step :=
  m.withLexeme fun lexeme =>
    match body? kind lexeme with
    | none => .panic .badSlice
    | some body =>
      match literal? kind body with
      | none => .failed (.invalidNumber (String.ofList lexeme) m.span)
      | some literal => m.loop (m.tokens ++ [⟨kind, String.ofList lexeme, literal, m.span⟩])

/-- **One step** of a scan. -/
def step (m : Machine) : Step :=
  match m.stage with
  | .unread =>
    match checkSourceLength (Text.byteLength m.cursor.source) with
    | .error e => .failed e
    | .ok () => m.loop m.tokens
  | .between =>
    match m.cursor.peek? with
    | none => .done
    | some c => m.take (.opened c)
  | .opened c =>
    match Stage.behind? c m.cursor.peek? with
    | none => .failed (.unexpectedCharacter c m.span)
    | some stage => m.goto stage
  | .operator single double =>
    if m.cursor.peek? = some '=' then m.take (.complete double) else m.goto (.complete single)
  | .secondSlash => m.take .comment
  | .comment => m.takeWhile (· != '\n') (m.goto (.complete .comment))
  | .string =>
    m.takeWhile (· != '"') <|
      if m.cursor.peek? = some '"' then m.take (.complete .string)
      else .failed (.unterminatedString m.span)
  | .whole =>
    m.takeWhile isDigit <|
      if m.cursor.peek? = some '.' ∧ m.cursor.peekNext?.any isDigit then m.take .fraction
      else m.goto (.complete .number)
  | .fraction => m.takeWhile isDigit (m.goto (.complete .number))
  | .word =>
    m.takeWhile isWordPart <|
      m.withLexeme fun lexeme => m.goto (.complete (Lexeme.wordKind lexeme))
  | .complete kind => m.emit kind

/-- One state leads to another. -/
def Steps (m m' : Machine) : Prop :=
  m.step = .next m'

/-- The states of the scan of a source. -/
def Reached (source : String) : Machine → Prop :=
  Relation.ReflTransGen Steps (.of source)

/-! ## Every step goes ahead -/

/-- A step goes ahead: it takes the next character, or goes on to a lower stage without. -/
def Step.Advances (m : Machine) : Step → Prop
  | .next m' =>
    (m'.cursor = m.cursor ∧ m'.stage.rank < m.stage.rank) ∨
      ∃ c rest, m.cursor.rest = c :: rest ∧ m'.cursor.rest = rest ∧
        m.cursor.place.advance? c = some m'.cursor.place
  | _ => True

section Advances

variable {m m' : Machine} {stage : Stage}

theorem advances_goto (h : stage.rank < m.stage.rank) : (m.goto stage).Advances m :=
  Or.inl ⟨rfl, h⟩

theorem advances_take (h : stage.rank < m.stage.rank ∨ m.cursor.peek? ≠ none) :
    (m.take stage).Advances m := by
  unfold take Cursor.skip?
  split
  · rename_i cursor hskip
    split at hskip
    · -- At the end of the source the cursor stays where it is, so the stage has to be a lower one.
      rename_i hrest
      rcases h with h | h
      · cases hskip
        exact Or.inl ⟨rfl, h⟩
      · exact absurd (congrArg List.head? hrest) h
    · rename_i c rest hrest
      obtain ⟨place, hplace, rfl⟩ := Option.map_eq_some_iff.mp hskip
      exact Or.inr ⟨c, rest, hrest, rfl, hplace⟩
  · trivial

theorem advances_take_of_peek? {c : Char} (h : m.cursor.peek? = some c) :
    (m.take stage).Advances m :=
  advances_take (Or.inr (by simp [h]))

theorem advances_takeWhile {p : Char → Bool} {otherwise : Step} (h : otherwise.Advances m) :
    (m.takeWhile p otherwise).Advances m := by
  unfold takeWhile
  split
  · rename_i hany
    refine advances_take (Or.inr fun hnone => ?_)
    rw [hnone] at hany
    cases hany
  · exact h

theorem advances_withLexeme {use : List Char → Step} (h : ∀ lexeme, (use lexeme).Advances m) :
    (m.withLexeme use).Advances m := by
  unfold withLexeme
  split
  · exact h _
  · trivial

theorem advances_loop {tokens : List Token} (h : 0 < m.stage.rank) :
    (m.loop tokens).Advances m :=
  Or.inl ⟨rfl, h⟩

theorem advances_emit {kind : TokenKind} (h : 0 < m.stage.rank) : (m.emit kind).Advances m := by
  refine advances_withLexeme fun lexeme => ?_
  split
  · trivial
  · split
    · trivial
    · exact advances_loop h

end Advances

/-- **Every step goes ahead.** -/
theorem advances_step (m : Machine) : m.step.Advances m := by
  have rank : ∀ {s : Stage}, m.stage = s → m.stage.rank = s.rank := congrArg Stage.rank
  unfold step
  cases h : m.stage with
  | unread =>
    dsimp only
    split
    · trivial
    · exact advances_loop (by rw [rank h]; decide)
  | between =>
    dsimp only
    split
    · trivial
    · rename_i hc
      exact advances_take_of_peek? hc
  | opened c =>
    dsimp only
    split
    · trivial
    · rename_i hs
      exact advances_goto (by rw [rank h]; exact Stage.rank_lt_of_behind? hs)
  | operator single double =>
    dsimp only
    split
    · rename_i hc
      exact advances_take_of_peek? hc
    · exact advances_goto (by rw [rank h]; exact Nat.lt_succ_self 1)
  | secondSlash => exact advances_take (Or.inl (by rw [rank h]; decide))
  | comment => exact advances_takeWhile (advances_goto (by rw [rank h]; decide))
  | string =>
    refine advances_takeWhile ?_
    split
    · rename_i hc
      exact advances_take_of_peek? hc
    · trivial
  | whole =>
    refine advances_takeWhile ?_
    split
    · rename_i hc
      exact advances_take_of_peek? hc.1
    · exact advances_goto (by rw [rank h]; decide)
  | fraction => exact advances_takeWhile (advances_goto (by rw [rank h]; decide))
  | word =>
    refine advances_takeWhile (advances_withLexeme fun lexeme => ?_)
    exact advances_goto (by rw [rank h]; exact Nat.lt_succ_self 1)
  | complete kind => exact advances_emit (by rw [rank h]; exact Nat.one_pos)

/-- What is left to do: a character is worth more than all stages. -/
def remaining (m : Machine) : Nat :=
  5 * m.cursor.rest.length + m.stage.rank

theorem remaining_lt_of_step {m m' : Machine} (h : m.step = .next m') :
    m'.remaining < m.remaining := by
  have hstep := m.advances_step
  have hrank := m'.stage.rank_le
  rw [h] at hstep
  unfold remaining
  rcases hstep with ⟨hcursor, hlt⟩ | ⟨c, rest, hrest, hrest', -⟩
  · rw [hcursor]
    omega
  · rw [hrest, hrest', List.length_cons]
    omega

/-! ## A run to its end -/

/-- **All steps** from a state on: the last state, or the error. -/
def run (m : Machine) : Except Panic (Except ScanError Machine) :=
  match _h : m.step with
  | .next m' => run m'
  | .done => .ok (.ok m)
  | .failed e => .ok (.error e)
  | .panic p => .error p
termination_by m.remaining
decreasing_by exact remaining_lt_of_step _h

/-- The tokens of a source. -/
def result (source : String) : Except Panic (Except ScanError (List Token)) :=
  (run (.of source)).map fun outcome => outcome.map tokens

/-- The tokens of a source and the marker of its end, which takes its offset from the size of the
source and its line and column from the cursor. -/
def resultWithEof (source : String) : Except Panic (Except ScanError (List Token)) :=
  (run (.of source)).map fun outcome => outcome.map fun m =>
    m.tokens ++ [Token.eof { m.cursor.place with offset := Text.byteLength m.cursor.source }]

/-- The steps from a state on come to an end. -/
theorem exists_last (m : Machine) :
    ∃ last, Relation.ReflTransGen Steps m last ∧ ∀ m', last.step ≠ .next m' := by
  fun_induction run m with
  | case1 m m' h ih =>
    obtain ⟨last, hsteps, hlast⟩ := ih
    exact ⟨last, .head h hsteps, hlast⟩
  | case2 m h => exact ⟨m, .refl, fun m' h' => by rw [h] at h'; cases h'⟩
  | case3 m e h => exact ⟨m, .refl, fun m' h' => by rw [h] at h'; cases h'⟩
  | case4 m p h => exact ⟨m, .refl, fun m' h' => by rw [h] at h'; cases h'⟩

/-! ## Tokens take characters -/

theorem offset_le_of_steps {m m' : Machine} (h : Relation.ReflTransGen Steps m m') :
    m.cursor.place.offset ≤ m'.cursor.place.offset := by
  induction h with
  | refl => exact Nat.le_refl _
  | @tail b c _ hstep ih =>
    have hadvances := b.advances_step
    rw [hstep] at hadvances
    rcases hadvances with ⟨hcursor, -⟩ | ⟨d, rest, -, -, hplace⟩
    · rw [hcursor]
      exact ih
    · rw [Position.offset_of_advance? hplace]
      exact Nat.le_add_right_of_le ih

/-- The turn of the loop for one token: from one state in which no token is being read to a later
one. -/
def Turn (m m' : Machine) : Prop :=
  m.stage = .between ∧ m'.stage = .between ∧ Relation.TransGen Steps m m'

/-- **A turn of the loop takes a character**, as no stage is lower than the one it starts in. -/
theorem offset_lt_of_turn {m m' : Machine} (h : Turn m m') :
    m.cursor.place.offset < m'.cursor.place.offset := by
  obtain ⟨hstage, -, hsteps⟩ := h
  obtain ⟨first, hstep, hrest⟩ := Relation.TransGen.head'_iff.mp hsteps
  have hadvances := m.advances_step
  rw [hstep] at hadvances
  rcases hadvances with ⟨-, hlt⟩ | ⟨c, rest, -, -, hplace⟩
  · rw [hstage] at hlt
    exact absurd hlt (Nat.not_lt_zero _)
  · have hle := offset_le_of_steps hrest
    have hsize := c.utf8Size_pos
    rw [Position.offset_of_advance? hplace] at hle
    omega

end Machine

end LoxTokenizer
