/-!
# Sequences cut after each stop

A sequence of bytes or characters is cut into lines after each line feed: every line but the last
ends with one, and the last may have none. The cut is a relation here, with no word on how it is
found; it is the same for the bytes of an input and for the characters of a text.

* `CutAfter stop input lines`: `lines` is `input`, cut after each `stop`.
* **`CutAfter.unique`**: there is one way to cut.
* `CutAfter.of_bodies`: what is put together from lines is cut into these lines.
-/

namespace LoxTokenizer

/-- **The cut** of a sequence after each `stop`. -/
inductive CutAfter {α : Type} (stop : α) : List α → List (List α) → Prop where
  | nil : CutAfter stop [] []
  /-- What is left behind the last `stop`, if anything is. -/
  | last {line : List α} (hne : line ≠ []) (h : stop ∉ line) : CutAfter stop line [line]
  | cons {body rest : List α} {lines : List (List α)} (h : stop ∉ body)
      (ht : CutAfter stop rest lines) :
      CutAfter stop (body ++ stop :: rest) ((body ++ [stop]) :: lines)

namespace CutAfter

variable {α : Type} {stop : α} {input : List α} {lines more : List (List α)}

/-- The first `stop` of a sequence is in one place. -/
theorem append_stop_inj {body body' rest rest' : List α} (h : stop ∉ body) (h' : stop ∉ body')
    (heq : body ++ stop :: rest = body' ++ stop :: rest') : body = body' ∧ rest = rest' := by
  induction body generalizing body' with
  | nil =>
    cases body' with
    | nil => exact ⟨rfl, (List.cons.inj heq).2⟩
    | cons a body' => exact absurd (List.cons.inj heq).1 (List.ne_of_not_mem_cons h')
  | cons a body ih =>
    cases body' with
    | nil => exact absurd (List.cons.inj heq).1.symm (List.ne_of_not_mem_cons h)
    | cons a' body' =>
      obtain ⟨rfl, htail⟩ := List.cons.inj heq
      obtain ⟨rfl, rfl⟩ :=
        ih (List.not_mem_of_not_mem_cons h) (List.not_mem_of_not_mem_cons h') htail
      exact ⟨rfl, rfl⟩

/-- **One way to cut.** -/
theorem unique (h : CutAfter stop input lines) (h' : CutAfter stop input more) : lines = more := by
  induction h generalizing more with
  | nil =>
    generalize hinput : ([] : List α) = input at h'
    cases h' with
    | nil => rfl
    | last hne _ => exact absurd hinput.symm hne
    | cons _ _ => simp at hinput
  | @last line hne h =>
    generalize hinput : line = input at h'
    cases h' with
    | nil => exact absurd hinput hne
    | last _ _ => rw [← hinput]
    | cons _ _ =>
      rw [hinput] at h
      simp at h
  | @cons body rest lines h ht ih =>
    generalize hinput : body ++ stop :: rest = input at h'
    cases h' with
    | nil => simp at hinput
    | last _ h' =>
      rw [← hinput] at h'
      simp at h'
    | cons h' ht' =>
      obtain ⟨rfl, rfl⟩ := append_stop_inj h h' hinput
      rw [ih ht']

/-- Lines that end with a `stop` and hold no other are cut from what they make together. -/
theorem of_bodies (bodies : List (List α)) (h : ∀ body ∈ bodies, stop ∉ body) :
    CutAfter stop (bodies.map fun body => body ++ [stop]).flatten
      (bodies.map fun body => body ++ [stop]) := by
  induction bodies with
  | nil => exact .nil
  | cons body bodies ih =>
    obtain ⟨hbody, hrest⟩ := List.forall_mem_cons.mp h
    rw [List.map_cons, List.flatten_cons, List.append_assoc, List.singleton_append]
    exact .cons hbody (ih hrest)

end CutAfter

end LoxTokenizer
