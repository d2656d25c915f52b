import LoxTokenizer.CommandLine.Prompt
import LoxTokenizer.Proofs.Text.Cut

/-!
# Texts as bytes

The bytes of a text are those of its characters in turn, and the text is read back from them. The
byte of a line feed stands for a line feed and is part of no other character, so that the lines of
the bytes are the bytes of the lines.

* `utf8_append`, `utf8_join`: the bytes of texts written one after the other.
* `decodeUtf8?_utf8`, `decodeUtf8?_eq_some_iff`: bytes of a text decode to it, and no others.
* **`CutAfter.utf8`**: a text and its bytes are cut into the same lines.
-/

namespace LoxTokenizer

theorem utf8_ofList (text : List Char) :
    utf8 (String.ofList text) = text.flatMap String.utf8EncodeChar := by
  simp [utf8, String.ofList, List.utf8Encode]

@[simp] theorem utf8_empty : utf8 "" = [] :=
  utf8_ofList []

theorem utf8_append (a b : String) : utf8 (a ++ b) = utf8 a ++ utf8 b := by
  rw [← String.ofList_toList (s := a), ← String.ofList_toList (s := b), ← String.ofList_append,
    utf8_ofList, utf8_ofList, utf8_ofList, List.flatMap_append]

theorem utf8_join (texts : List String) : utf8 (String.join texts) = texts.flatMap utf8 := by
  induction texts with
  | nil => exact utf8_empty
  | cons text texts ih => rw [String.join_cons, utf8_append, ih, List.flatMap_cons]

/-- **The bytes of a text decode to it.** -/
theorem decodeUtf8?_utf8 (text : String) : decodeUtf8? (utf8 text) = some text := by
  simp only [decodeUtf8?, String.fromUTF8?, utf8, Array.toArray_toList,
    String.toUTF8_eq_toByteArray]
  exact dif_pos text.isValidUTF8

/-- Bytes that decode to a text are the bytes of that text. -/
theorem decodeUtf8?_eq_some_iff {bytes : List UInt8} {text : String} :
    decodeUtf8? bytes = some text ↔ bytes = utf8 text := by
  constructor
  · intro h
    unfold decodeUtf8? String.fromUTF8? at h
    split at h
    · cases h
      rfl
    · cases h
  · rintro rfl
    exact decodeUtf8?_utf8 text

theorem utf8_inj {a b : String} (h : utf8 a = utf8 b) : a = b := by
  have hb := decodeUtf8?_utf8 b
  rw [← h, decodeUtf8?_utf8] at hb
  exact Option.some.inj hb

/-! ## Line feeds -/

theorem utf8_newline : utf8 "\n" = [Prompt.lineFeed] := by
  decide

/-- No byte of another character is that of a line feed: it is less than all bytes of a character
that has several. -/
theorem lineFeed_not_mem_utf8EncodeChar {c : Char} (h : c ≠ '\n') :
    Prompt.lineFeed ∉ String.utf8EncodeChar c := by
  have hcode : c.val.toNat ≠ 10 := fun hc => h (Char.ext (UInt32.toNat_inj.mp hc))
  have hbyte : ∀ n : Nat, UInt8.ofNat n = Prompt.lineFeed → n % 256 = 10 := by
    intro n hn
    simpa [Prompt.lineFeed] using congrArg UInt8.toNat hn
  intro hm
  unfold String.utf8EncodeChar at hm
  dsimp only at hm
  split at hm
  · have := hbyte _ (List.mem_singleton.mp hm).symm
    omega
  · split at hm
    · simp only [List.mem_cons, List.not_mem_nil, or_false] at hm
      rcases hm with hm | hm <;> have := hbyte _ hm.symm <;> omega
    · split at hm
      · simp only [List.mem_cons, List.not_mem_nil, or_false] at hm
        rcases hm with hm | hm | hm <;> have := hbyte _ hm.symm <;> omega
      · simp only [List.mem_cons, List.not_mem_nil, or_false] at hm
        rcases hm with hm | hm | hm | hm <;> have := hbyte _ hm.symm <;> omega

theorem lineFeed_not_mem_utf8 {text : List Char} (h : '\n' ∉ text) :
    Prompt.lineFeed ∉ utf8 (String.ofList text) := by
  rw [utf8_ofList, List.mem_flatMap]
  rintro ⟨c, hc, hm⟩
  exact lineFeed_not_mem_utf8EncodeChar (fun heq => h (heq ▸ hc)) hm

theorem utf8_ofList_cons_newline (text : List Char) :
    utf8 (String.ofList ('\n' :: text)) = Prompt.lineFeed :: utf8 (String.ofList text) := by
  rw [← List.singleton_append, String.ofList_append, utf8_append]
  exact congrArg (· ++ utf8 (String.ofList text)) utf8_newline

/-- **The lines of the bytes are the bytes of the lines.** -/
theorem CutAfter.utf8 {text : List Char} {lines : List (List Char)} (h : CutAfter '\n' text lines) :
    CutAfter Prompt.lineFeed (utf8 (String.ofList text))
      (lines.map fun line => LoxTokenizer.utf8 (String.ofList line)) := by
  induction h with
  | nil => exact .nil
  | @last line hne h =>
    refine .last ?_ (lineFeed_not_mem_utf8 h)
    intro hnil
    have hempty : String.ofList line = String.ofList [] := utf8_inj (hnil.trans utf8_empty.symm)
    exact hne (String.ofList_injective hempty)
  | @cons body rest lines h _ ih =>
    rw [List.map_cons, String.ofList_append, String.ofList_append, utf8_append, utf8_append,
      utf8_ofList_cons_newline, utf8_ofList_cons_newline]
    exact .cons (lineFeed_not_mem_utf8 h) ih

end LoxTokenizer
