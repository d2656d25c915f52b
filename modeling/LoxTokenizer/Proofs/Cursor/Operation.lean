import LoxTokenizer.Proofs.Machine.Reading

/-!
# The operations of a cursor

A cursor holds its place twice: as the text that is left, and as counts of bytes, lines and columns.
It reads from the one and tells its place by the other, and by the other it also decides whether it
is at the end and where it cuts. Here its operations are told by the text alone, cut in two at the
cursor: what each answers, and what it takes off the front of the text that is left.

* `Cursor.perform`: one operation, its answer and the cursor that it leaves.
* `Cursor.perform?`: the same, counted in words of 32 bits.
* `Does`: what an operation answers and takes, told by the text before and behind the cursor.
* `Cursor.between`: the cursor at a cut of a text, with the counts of the text before it.
* **`Cursor.sound_perform`**: the step lemma. At a cut, every operation does what `Does` says, and
  leaves the cursor at the cut behind what it took.
* **`Cursor.perform?_between`**: within the size limit, counting in words makes no difference.
-/

namespace LoxTokenizer

/-! ## Slices that are not there -/

namespace Text

variable {text : List Char} {start stop n : Nat}

theorem slice?_of_lt (h : stop < start) : slice? text start stop = none :=
  if_neg (Nat.not_le.mpr h)

theorem slice?_of_not_isCut (h : ¬ IsCut text start) : slice? text start stop = none := by
  have hsplit : splitAt? text start = none := by
    cases hs : splitAt? text start with
    | none => rfl
    | some parts =>
      obtain ⟨htext, hn⟩ := append_of_splitAt? hs
      exact absurd ⟨parts.1, parts.2, htext, hn⟩ h
  unfold slice?
  rw [hsplit, Option.bind_none, ite_self]

/-- A cut of a text that is no further than its beginning `read` is a cut of `read`. -/
theorem IsCut.of_append {read rest : List Char} (h : IsCut (read ++ rest) n)
    (hle : n ≤ byteLength read) : IsCut read n := by
  obtain ⟨before, behind, happend, hn⟩ := h
  -- Of `before` and `read` one begins the other; by the bytes it is `before` that begins `read`.
  rcases List.append_eq_append_iff.mp happend with ⟨more, hbefore, -⟩ | ⟨more, hread, -⟩
  · have hmore : more = [] := by
      apply eq_nil_of_byteLength
      rw [hbefore, byteLength_append] at hn
      omega
    rw [hmore, List.append_nil] at hbefore
    exact ⟨before, [], by rw [hbefore, List.append_nil], hn⟩
  · exact ⟨before, more, hread, hn⟩

end Text

namespace Cursor

/-! ## Operations and answers -/

/-- What may be asked of a cursor. -/
inductive Operation where
  | advance
  | eat (expected : Char)
  | eatWhile (p : Char → Bool)
  | peek
  | peekNext
  | isAtEnd
  | position
  | sliceFrom (start : Nat)

/-- What a cursor answers. -/
inductive Answer where
  | character (c : Option Char)
  | flag (b : Bool)
  | place (p : Position)
  | slice (text : List Char)
  /-- There is nothing to tell. -/
  | done
  /-- The operation cannot be made, and the cursor is as it was. -/
  | panic (p : Panic)
  deriving DecidableEq, Repr

/-- A slice that is not there is a panic. -/
def Answer.ofSlice? : Option (List Char) → Answer
  | some text => .slice text
  | none => .panic .badSlice

/-- **One operation**: its answer, and the cursor that it leaves. -/
def perform (k : Cursor) : Operation → Answer × Cursor
  | .advance => (.character k.advance.1, k.advance.2)
  | .eat expected => (.flag (k.eat expected).1, (k.eat expected).2)
  | .eatWhile p => (.done, k.eatWhile p)
  | .peek => (.character k.peek?, k)
  | .peekNext => (.character k.peekNext?, k)
  | .isAtEnd => (.flag k.isAtEnd, k)
  | .position => (.place k.place, k)
  | .sliceFrom start => (.ofSlice? (k.sliceFrom? start), k)

/-! ## Operations counted in words -/

theorem length_rest_skip? {k next : Cursor} {c : Char} (hc : k.peek? = some c)
    (h : k.skip? = some next) : next.rest.length < k.rest.length := by
  obtain ⟨rest, hrest⟩ := List.head?_eq_some_iff.mp hc
  unfold skip? at h
  rw [hrest] at h ⊢
  obtain ⟨place, -, rfl⟩ := Option.map_eq_some_iff.mp h
  exact Nat.lt_succ_self _

/-- Takes characters for as long as the next one meets a condition, if all counts fit in words. -/
def eatWhile? (p : Char → Bool) (k : Cursor) : Option Cursor :=
  match _hc : k.peek? with
  | some c =>
    if p c then
      match _hnext : k.skip? with
      | some next => eatWhile? p next
      | none => none
    else some k
  | none => some k
termination_by k.rest.length
decreasing_by exact length_rest_skip? _hc _hnext

/-- One operation, if all counts fit in words. Those that take no character count nothing. -/
def perform? (k : Cursor) : Operation → Option (Answer × Cursor)
  | .advance => k.skip?.map fun next => (.character k.peek?, next)
  | .eat expected =>
    if k.peek? = some expected then k.skip?.map fun next => (.flag true, next)
    else some (.flag false, k)
  | .eatWhile p => (k.eatWhile? p).map fun next => (.done, next)
  | op => some (k.perform op)

end Cursor

/-! ## What an operation does -/

open Cursor Lexeme

/-- `run` is the longest beginning of a text whose characters all meet a condition, and `left` is
what is behind it. -/
structure IsLongestRun (p : Char → Bool) (run left : List Char) : Prop where
  all : ∀ c ∈ run, p c = true
  stops : ∀ c ∈ left.head?, p c = false
  longest : ∀ other, other <+: run ++ left → (∀ c ∈ other, p c = true) → other <+: run

/-- A run that cannot be made longer by one character cannot be made longer at all. -/
theorem isLongestRun_of {p : Char → Bool} {run left : List Char} (hall : ∀ c ∈ run, p c = true)
    (hstops : ∀ c ∈ left.head?, p c = false) : IsLongestRun p run left where
  all := hall
  stops := hstops
  longest other hother hp := by
    obtain ⟨behind, hbehind⟩ := hother
    rw [← takeWhile_append hall hstops, ← hbehind, List.takeWhile_append_of_pos hp]
    exact List.prefix_append _ _

/-- **What an operation does** where `read` lies before the cursor and `rest` behind it: what it
answers, and what it takes off the front of `rest`. -/
inductive Does (read rest : List Char) : Operation → Answer → List Char → Prop where
  | advance {c : Char} (h : rest.head? = some c) :
      Does read rest .advance (.character (some c)) [c]
  | advanceAtEnd (h : rest = []) : Does read rest .advance (.character none) []
  | eat {c : Char} (h : rest.head? = some c) : Does read rest (.eat c) (.flag true) [c]
  | eatOther {c : Char} (h : rest.head? ≠ some c) : Does read rest (.eat c) (.flag false) []
  | eatWhile {p : Char → Bool} {run left : List Char} (hrest : rest = run ++ left)
      (h : IsLongestRun p run left) : Does read rest (.eatWhile p) .done run
  | peek : Does read rest .peek (.character rest.head?) []
  | peekNext : Does read rest .peekNext (.character rest[1]?) []
  | atEnd (h : rest.head? = none) : Does read rest .isAtEnd (.flag true) []
  /-- Any character keeps the cursor from the end, that with code point zero included. -/
  | notAtEnd {c : Char} (h : rest.head? = some c) : Does read rest .isAtEnd (.flag false) []
  | position : Does read rest .position (.place (.behind read)) []
  /-- From a cut of the text read, the slice is what has been read since. -/
  | slice {before since : List Char} (h : read = before ++ since) :
      Does read rest (.sliceFrom (Text.byteLength before)) (.slice since) []
  | sliceAhead {start : Nat} (h : Text.byteLength read < start) :
      Does read rest (.sliceFrom start) (.panic .badSlice) []
  | sliceInside {start : Nat} (h : ¬ Text.IsCut (read ++ rest) start) :
      Does read rest (.sliceFrom start) (.panic .badSlice) []

namespace Cursor

/-! ## The cursor at a cut -/

/-- **The cursor at a cut** of a text, with the counts of the text before it. -/
def between (read rest : List Char) : Cursor :=
  ⟨read ++ rest, rest, .behind read⟩

theorem of_eq_between (source : List Char) : of source = between [] source := rfl

@[simp] theorem peek?_between (read rest : List Char) :
    (between read rest).peek? = rest.head? := rfl

/-- A cursor is at one cut. -/
theorem between_inj {read rest read' rest' : List Char}
    (h : between read rest = between read' rest') : read = read' ∧ rest = rest' := by
  obtain ⟨hsource, hrest, -⟩ := Cursor.mk.inj h
  obtain rfl : rest = rest' := hrest
  exact ⟨List.append_cancel_right hsource, rfl⟩

/-- A character taken moves the cut and the counts alike. -/
theorem skip_between_cons (read rest : List Char) (c : Char) :
    (between read (c :: rest)).skip = between (read ++ [c]) rest := by
  unfold between
  rw [← Position.advance_behind, ← List.append_cons]
  rfl

theorem eatWhile_between {p : Char → Bool} {run left : List Char} (h : IsLongestRun p run left)
    (read : List Char) : (between read (run ++ left)).eatWhile p = between (read ++ run) left := by
  obtain ⟨hall, hstops, -⟩ := h
  induction run generalizing read with
  | nil =>
    rw [eatWhile]
    cases left with
    | nil => simp
    | cons c left => simp [hstops c rfl]
  | cons c run ih =>
    obtain ⟨hc, hrun⟩ := List.forall_mem_cons.mp hall
    rw [eatWhile]
    simp [hc, skip_between_cons, ih _ hrun]

/-- The end that the counts tell is the end of the text. -/
theorem isAtEnd_between (read rest : List Char) :
    (between read rest).isAtEnd = decide (rest = []) := by
  unfold isAtEnd
  apply decide_eq_decide.mpr
  show Text.byteLength (read ++ rest) ≤ Text.byteLength read ↔ rest = []
  rw [Text.byteLength_append]
  constructor
  · intro hle
    exact Text.eq_nil_of_byteLength (by omega)
  · rintro rfl
    exact Nat.le_refl _

theorem sliceFrom?_between (before since rest : List Char) :
    (between (before ++ since) rest).sliceFrom? (Text.byteLength before) = some since :=
  Text.slice?_append before since rest

/-! ## Every operation is sound -/

/-- An outcome is sound: the answer is that of the operation, and the cursor is at the cut behind
what the operation took. -/
def Sound (read rest : List Char) (op : Operation) (outcome : Answer × Cursor) : Prop :=
  ∃ taken left, rest = taken ++ left ∧ Does read rest op outcome.1 taken ∧
    outcome.2 = between (read ++ taken) left

section Sound

variable {read rest : List Char} {op : Operation} {answer : Answer}

/-- An operation that takes nothing leaves the cursor as it is. -/
theorem sound_stay (h : Does read rest op answer []) :
    Sound read rest op (answer, between read rest) :=
  ⟨[], rest, rfl, h, by rw [List.append_nil]⟩

theorem sound_skip {c : Char} (h : Does read (c :: rest) op answer [c]) :
    Sound read (c :: rest) op (answer, (between read (c :: rest)).skip) :=
  ⟨[c], rest, rfl, h, skip_between_cons read rest c⟩

theorem sound_advance : Sound read rest .advance ((between read rest).perform .advance) := by
  cases rest with
  | nil => exact sound_stay (.advanceAtEnd rfl)
  | cons c rest => exact sound_skip (.advance rfl)

theorem sound_eat (expected : Char) :
    Sound read rest (.eat expected) ((between read rest).perform (.eat expected)) := by
  unfold perform eat
  dsimp only
  rw [peek?_between]
  by_cases h : rest.head? = some expected
  · rw [if_pos h]
    obtain ⟨left, rfl⟩ := List.head?_eq_some_iff.mp h
    exact sound_skip (.eat h)
  · rw [if_neg h]
    exact sound_stay (.eatOther h)

theorem sound_eatWhile (p : Char → Bool) :
    Sound read rest (.eatWhile p) ((between read rest).perform (.eatWhile p)) := by
  obtain ⟨run, left, rfl, hall, hstops⟩ := exists_run p rest
  have hrun := isLongestRun_of hall hstops
  exact ⟨run, left, rfl, .eatWhile rfl hrun, eatWhile_between hrun read⟩

theorem sound_isAtEnd : Sound read rest .isAtEnd ((between read rest).perform .isAtEnd) := by
  unfold perform
  dsimp only
  rw [isAtEnd_between]
  cases rest with
  | nil => exact sound_stay (.atEnd rfl)
  | cons c rest => exact sound_stay (.notAtEnd rfl)

theorem sound_sliceFrom (start : Nat) :
    Sound read rest (.sliceFrom start) ((between read rest).perform (.sliceFrom start)) := by
  have hslice : (between read rest).sliceFrom? start =
      Text.slice? (read ++ rest) start (Text.byteLength read) := rfl
  unfold perform
  dsimp only
  by_cases hahead : Text.byteLength read < start
  · rw [hslice, Text.slice?_of_lt hahead]
    exact sound_stay (.sliceAhead hahead)
  by_cases hcut : Text.IsCut (read ++ rest) start
  · obtain ⟨before, since, rfl, rfl⟩ := hcut.of_append (Nat.not_lt.mp hahead)
    rw [sliceFrom?_between]
    exact sound_stay (.slice rfl)
  · rw [hslice, Text.slice?_of_not_isCut hcut]
    exact sound_stay (.sliceInside hcut)

/-- **Every operation is sound** at every cut. -/
theorem sound_perform (read rest : List Char) (op : Operation) :
    Sound read rest op ((between read rest).perform op) := by
  cases op with
  | advance => exact sound_advance
  | eat expected => exact sound_eat expected
  | eatWhile p => exact sound_eatWhile p
  | peek => exact sound_stay .peek
  | peekNext => exact sound_stay .peekNext
  | isAtEnd => exact sound_isAtEnd
  | position => exact sound_stay .position
  | sliceFrom start => exact sound_sliceFrom start

end Sound

/-! ## Words are enough -/

section Words

variable {read rest : List Char} (hle : Text.byteLength (read ++ rest) ≤ maxSourceLength)

include hle

theorem skip?_between : (between read rest).skip? = some (between read rest).skip := by
  refine skip?_eq fun c hc => ?_
  obtain ⟨left, rfl⟩ := List.head?_eq_some_iff.mp hc
  show (Position.behind read).Fits c
  rw [← Position.start_after]
  exact Position.fits_start_after hle

theorem eatWhile?_between (p : Char → Bool) :
    (between read rest).eatWhile? p = some ((between read rest).eatWhile p) := by
  induction rest generalizing read with
  | nil =>
    rw [eatWhile?, eatWhile]
    rfl
  | cons c rest ih =>
    rw [eatWhile?, eatWhile]
    by_cases hc : p c = true
    · have hskip := skip?_between hle
      rw [skip_between_cons] at hskip
      -- The text is the same behind the character, only cut elsewhere, so the limit still holds.
      rw [List.append_cons] at hle
      simp only [peek?_between, List.head?_cons, hc, if_true, skip_between_cons]
      split
      · rename_i next hnext
        rw [hskip] at hnext
        cases hnext
        exact ih hle
      · rename_i hnone
        rw [hskip] at hnone
        cases hnone
    · simp [hc]

/-- **Within the size limit words are enough** for every operation. -/
theorem perform?_between (op : Operation) :
    (between read rest).perform? op = some ((between read rest).perform op) := by
  cases op with
  | advance =>
    unfold perform?
    dsimp only
    rw [skip?_between hle]
    rfl
  | eat expected =>
    unfold perform? perform eat
    dsimp only
    rw [skip?_between hle]
    split <;> rfl
  | eatWhile p =>
    unfold perform?
    dsimp only
    rw [eatWhile?_between hle]
    rfl
  | _ => rfl

end Words

end Cursor

end LoxTokenizer
