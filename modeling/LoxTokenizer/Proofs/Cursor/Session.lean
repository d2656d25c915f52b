import LoxTokenizer.Proofs.Cursor.Operation

/-!
# A cursor stays in step with its source

Whatever is asked of a cursor, and in whatever order, its counts stay those of the text that it has
read, and its answers are those that the text gives.

* `Cursor.session`: operations one after the other. `Cursor.session?`: the same, counted in words.
* `DoesAll`: what the operations answer and take, each at the place that those before it left.
* `Cursor.exists_session`: the run lemma, from the step lemma of the operations.
* **`Cursor.session_inStep`**: of a source within the size limit, every session is in step
  (`Cursor.InStep`).
-/

namespace LoxTokenizer

open Cursor

/-- What operations do one after the other: from a cut of a text on, with their answers, to a later
cut. -/
inductive DoesAll :
    List Char → List Char → List Operation → List Answer → List Char → List Char → Prop where
  | nil (read rest : List Char) : DoesAll read rest [] [] read rest
  | cons {read taken left last behind : List Char} {op : Operation} {ops : List Operation}
      {answer : Answer} {answers : List Answer} (h : Does read (taken ++ left) op answer taken)
      (ht : DoesAll (read ++ taken) left ops answers last behind) :
      DoesAll read (taken ++ left) (op :: ops) (answer :: answers) last behind

namespace Cursor

/-! ## Sessions -/

/-- **Operations one after the other**: their answers, and the cursor that they leave. -/
def session (k : Cursor) : List Operation → List Answer × Cursor
  | [] => ([], k)
  | op :: ops =>
    let outcome := k.perform op
    let more := outcome.2.session ops
    (outcome.1 :: more.1, more.2)

/-- Operations one after the other, if all counts fit in words. -/
def session? (k : Cursor) : List Operation → Option (List Answer × Cursor)
  | [] => some ([], k)
  | op :: ops =>
    (k.perform? op).bind fun outcome =>
      (outcome.2.session? ops).map fun more => (outcome.1 :: more.1, more.2)

theorem session_append (k : Cursor) (earlier later : List Operation) :
    (k.session (earlier ++ later)).2 = ((k.session earlier).2.session later).2 := by
  induction earlier generalizing k with
  | nil => rfl
  | cons op ops ih => exact ih (k.perform op).2

/-- Every session does what `DoesAll` says, and leaves a cursor at a later cut. -/
theorem exists_session (read rest : List Char) (ops : List Operation) :
    ∃ taken left, rest = taken ++ left ∧
      DoesAll read rest ops ((between read rest).session ops).1 (read ++ taken) left ∧
      ((between read rest).session ops).2 = between (read ++ taken) left := by
  induction ops generalizing read rest with
  | nil =>
    refine ⟨[], rest, rfl, ?_, ?_⟩
    · rw [List.append_nil]
      exact .nil read rest
    · rw [List.append_nil]
      rfl
  | cons op ops ih =>
    obtain ⟨first, middle, rfl, hdoes, hnext⟩ := sound_perform read rest op
    obtain ⟨more, left, rfl, hall, hlast⟩ := ih (read ++ first) middle
    rw [← hnext, List.append_assoc] at hall hlast
    exact ⟨first ++ more, left, (List.append_assoc _ _ _).symm, .cons hdoes hall, hlast⟩

/-- Within the size limit words are enough for every session. -/
theorem session?_between (read rest : List Char)
    (hle : Text.byteLength (read ++ rest) ≤ maxSourceLength) (ops : List Operation) :
    (between read rest).session? ops = some ((between read rest).session ops) := by
  induction ops generalizing read rest with
  | nil => rfl
  | cons op ops ih =>
    have hword := perform?_between hle op
    obtain ⟨taken, left, rfl, -, hnext⟩ := sound_perform read rest op
    rw [← List.append_assoc] at hle
    have hmore := ih (read ++ taken) left hle
    rw [← hnext] at hmore
    unfold session?
    rw [hword, Option.bind_some, hmore]
    rfl

/-! ## In step -/

/-- The cursor that operations leave, from the start of a source on. -/
def after (source : List Char) (ops : List Operation) : Cursor :=
  ((of source).session ops).2

/-- **A session in step** with its source: it has read `read`, and `rest` is left. -/
structure InStep (source : List Char) (ops : List Operation) (read rest : List Char) : Prop where
  append : read ++ rest = source
  /-- The cursor stands between the two, with the counts of what has been read. -/
  cursor : after source ops = between read rest
  /-- All along, the answers were those that the text gives. -/
  answers : DoesAll [] source ops ((of source).session ops).1 read rest
  /-- No count has left its word. -/
  words : (of source).session? ops = some ((of source).session ops)
  /-- From every place where the cursor has been, what has been read since can be cut out. -/
  slices : ∀ earlier later, earlier ++ later = ops → ∃ before since, read = before ++ since ∧
    after source earlier = between before (since ++ rest) ∧
    (after source ops).sliceFrom? (after source earlier).place.offset = some since

/-- The cursor is at a cut of the source, and later at the same or a later one. -/
theorem exists_after_append (source : List Char) (earlier later : List Operation) :
    ∃ before since rest, after source earlier = between before (since ++ rest) ∧
      after source (earlier ++ later) = between (before ++ since) rest := by
  obtain ⟨before, behind, -, -, hbefore⟩ := exists_session [] source earlier
  obtain ⟨since, rest, rfl, -, hsince⟩ := exists_session before behind later
  refine ⟨before, since, rest, hbefore, ?_⟩
  unfold after
  rw [session_append, of_eq_between, hbefore]
  exact hsince

/-- **A cursor stays in step with its source**, whatever the operations and their order. -/
theorem session_inStep (source : String)
    (hle : Text.byteLength source.toList ≤ maxSourceLength) (ops : List Operation) :
    ∃ read rest, InStep source.toList ops read rest := by
  obtain ⟨read, rest, hsource, hanswers, hcursor⟩ := exists_session [] source.toList ops
  have hwords := session?_between [] source.toList hle ops
  refine ⟨read, rest, hsource.symm, hcursor, hanswers, hwords, ?_⟩
  intro earlier later hops
  obtain ⟨before, since, left, hearlier, hlater⟩ := exists_after_append source.toList earlier later
  rw [hops] at hlater
  obtain ⟨rfl, rfl⟩ := between_inj (hcursor.symm.trans hlater)
  refine ⟨before, since, rfl, hearlier, ?_⟩
  rw [hlater, hearlier]
  exact sliceFrom?_between before since rest

/-- A source of a two-byte character, a line feed, a character with code point zero and two letters.
The line feed is eaten but not a letter in its place; the end is met twice; and of the places to
cut from, one is inside a character and one is ahead. -/
theorem session_inStep_letters :
    Text.byteLength "é\n\x00ax".toList ≤ maxSourceLength ∧ ∃ ops : List Operation,
      ops = [.advance, .peekNext, .eat 'z', .eat '\n', .position, .isAtEnd, .eatWhile (· != 'x'),
        .sliceFrom 3, .sliceFrom 1, .sliceFrom 6, .advance, .isAtEnd, .advance, .position] ∧
      ((of "é\n\x00ax".toList).session ops).1 =
        [.character (some 'é'), .character (some '\x00'), .flag false, .flag true,
          .place ⟨2, 1, 3⟩, .flag false, .done, .slice ['\x00', 'a'], .panic .badSlice,
          .panic .badSlice, .character (some 'x'), .flag true, .character none,
          .place ⟨2, 4, 6⟩] ∧
      ∃ read rest, InStep "é\n\x00ax".toList ops read rest := by
  have hle : Text.byteLength "é\n\x00ax".toList ≤ maxSourceLength := by decide
  exact ⟨hle, _, rfl, by decide +kernel, session_inStep _ hle _⟩

end Cursor

end LoxTokenizer
