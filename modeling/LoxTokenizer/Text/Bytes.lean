/-!
# Texts measured and cut in bytes

A text is a list of characters; offsets into it count the bytes of its UTF-8 form. A cut at a
byte offset exists only where a character begins or the text ends, so the functions that cut
answer with an option.

* **`splitAt?_byteLength`**: cutting `a ++ b` after the bytes of `a` gives back `a` and `b`.
* **`append_of_splitAt?`**: the two parts of a cut are the text again, and the first has as many
  bytes as were asked for.
-/

namespace LoxTokenizer.Text

/-- The number of bytes of a text in UTF-8. -/
def byteLength (text : List Char) : Nat :=
  text.foldr (fun c bytes => c.utf8Size + bytes) 0

@[simp] theorem byteLength_nil : byteLength [] = 0 := rfl

@[simp] theorem byteLength_cons (c : Char) (text : List Char) :
    byteLength (c :: text) = c.utf8Size + byteLength text := rfl

@[simp] theorem byteLength_append (a b : List Char) :
    byteLength (a ++ b) = byteLength a + byteLength b := by
  induction a with
  | nil => exact (Nat.zero_add _).symm
  | cons c a ih => rw [List.cons_append, byteLength_cons, byteLength_cons, ih, Nat.add_assoc]

/-- A text has no more characters than bytes. -/
theorem length_le_byteLength (text : List Char) : text.length ≤ byteLength text := by
  induction text with
  | nil => exact Nat.le_refl 0
  | cons c text ih =>
    have := c.utf8Size_pos
    rw [List.length_cons, byteLength_cons]
    omega

theorem eq_nil_of_byteLength {text : List Char} (h : byteLength text = 0) : text = [] :=
  List.eq_nil_of_length_eq_zero (Nat.le_zero.mp (h ▸ length_le_byteLength text))

/-- Cuts a text after its first `n` bytes. No cut goes through a character or past the end. -/
def splitAt? : List Char → Nat → Option (List Char × List Char)
  | text, 0 => some ([], text)
  | [], _ + 1 => none
  | c :: rest, n + 1 =>
    if c.utf8Size ≤ n + 1 then
      (splitAt? rest (n + 1 - c.utf8Size)).map fun parts => (c :: parts.1, parts.2)
    else
      none

/-- The part of a text from byte `start` up to byte `stop`, if both are cuts in this order. -/
def slice? (text : List Char) (start stop : Nat) : Option (List Char) :=
  if start ≤ stop then
    (splitAt? text start).bind fun parts =>
      (splitAt? parts.2 (stop - start)).map fun inner => inner.1
  else
    none

/-- The number of characters before byte `n`, or the length of the text where `n` is no cut. -/
def charIndex (text : List Char) (n : Nat) : Nat :=
  match splitAt? text n with
  | some parts => parts.1.length
  | none => text.length

/-! ## The cuts of a text -/

@[simp] theorem splitAt?_zero (text : List Char) : splitAt? text 0 = some ([], text) := by
  cases text <;> rfl

theorem splitAt?_cons (c : Char) (rest : List Char) (n : Nat) :
    splitAt? (c :: rest) (c.utf8Size + n) =
      (splitAt? rest n).map fun parts => (c :: parts.1, parts.2) := by
  obtain ⟨k, hk⟩ : ∃ k, c.utf8Size + n = k + 1 :=
    ⟨c.utf8Size + n - 1, by have := c.utf8Size_pos; omega⟩
  rw [hk, splitAt?, if_pos (by omega), show k + 1 - c.utf8Size = n by omega]

theorem splitAt?_byteLength (a b : List Char) :
    splitAt? (a ++ b) (byteLength a) = some (a, b) := by
  induction a with
  | nil => simp
  | cons c a ih => simp [splitAt?_cons, ih]

theorem append_of_splitAt? {text a b : List Char} {n : Nat} (h : splitAt? text n = some (a, b)) :
    text = a ++ b ∧ byteLength a = n := by
  fun_induction splitAt? text n generalizing a b with
  | case1 => simp_all
  | case2 => simp at h
  | case3 c rest n hle ih =>
    obtain ⟨parts, hp, heq⟩ := Option.map_eq_some_iff.1 h
    obtain ⟨rfl, rfl⟩ := Prod.mk.inj heq
    obtain ⟨hr, hn⟩ := ih hp
    exact ⟨by rw [hr]; rfl, by simp only [byteLength_cons, hn]; omega⟩
  | case4 => simp at h

end LoxTokenizer.Text
