import LoxTokenizer.Text.Quoted

/-!
# Reading a quoted text

A text between double quotes is read back character by character: a backslash starts an escape, a
code point between braces goes on to the closing brace, and the first quote that no backslash
stands before ends the text. What is read back is the text that was quoted, whatever it holds and
whatever follows it, be it quotes, backslashes or something that looks like an escape.

* `hexValue_toDigits`: the value of a number in hexadecimal.
* `read_escape`: an escaped character is read back.
* **`readQuoted?_quoteText`**: a quoted text is read back.
* `newline_not_mem_quoteText`: a quoted text is on one line.
-/

namespace LoxTokenizer.Text

/-! ## Hexadecimal -/

/-- The value of a digit in lower-case hexadecimal. -/
def hexDigit (c : Char) : Nat :=
  if c.isDigit then c.toNat - '0'.toNat else c.toNat - 'a'.toNat + 10

/-- The value of some digits in hexadecimal behind others of the value `high`. -/
def hexValue (high : Nat) (digits : List Char) : Nat :=
  digits.foldl (fun value c => 16 * value + hexDigit c) high

theorem hexDigit_digitChar {d : Nat} (h : d < 16) : hexDigit (Nat.digitChar d) = d := by
  revert d
  decide

/-- **A number is read back** from its digits. -/
theorem hexValue_toDigits (n : Nat) : hexValue 0 (Nat.toDigits 16 n) = n := by
  induction n using Nat.strongRecOn with
  | ind n ih =>
    rw [Nat.toDigits_eq_if (by decide)]
    split
    case isTrue h => simpa [hexValue] using hexDigit_digitChar h
    case isFalse h =>
      have hd := hexDigit_digitChar (Nat.mod_lt n (show 0 < 16 by decide))
      have hhigh := ih (n / 16) (by omega)
      unfold hexValue at hhigh ⊢
      rw [List.foldl_append, hhigh, List.foldl_cons, List.foldl_nil, hd]
      exact Nat.div_add_mod n 16

theorem exists_digitChar_of_mem {n : Nat} {c : Char} (h : c ∈ Nat.toDigits 16 n) :
    ∃ d < 16, c = Nat.digitChar d := by
  induction n using Nat.strongRecOn with
  | ind n ih =>
    rw [Nat.toDigits_eq_if (by decide)] at h
    split at h
    case isTrue hlt => exact ⟨n, hlt, List.mem_singleton.mp h⟩
    case isFalse hle =>
      rcases List.mem_append.mp h with h | h
      · exact ih (n / 16) (by omega) h
      · exact ⟨n % 16, Nat.mod_lt n (by decide), List.mem_singleton.mp h⟩

/-- A digit is neither a brace nor a line feed. -/
theorem ne_of_mem_toDigits {n : Nat} {c : Char} (h : c ∈ Nat.toDigits 16 n) :
    c ≠ '}' ∧ c ≠ '\n' := by
  obtain ⟨d, hd, rfl⟩ := exists_digitChar_of_mem h
  clear h
  revert d
  decide

/-! ## The reader -/

/-- Where a reader is: between characters, behind a backslash, behind the letter of a code point,
or within a code point of which it has read so much. -/
inductive Reader where
  | between
  | backslash
  | letter
  | digits (value : Nat)
  deriving DecidableEq, Repr

/-- The character of an escape that is a letter or digit, or the escaped character itself. -/
def unescape (c : Char) : Char :=
  if c = '0' then '\x00' else if c = 't' then '\t' else if c = 'n' then '\n'
  else if c = 'r' then '\r' else c

/-- Puts a character in front of what is read. -/
def andRead (c : Char) (read : Option (List Char × List Char)) : Option (List Char × List Char) :=
  read.map fun (text, rest) => (c :: text, rest)

/-- Reads up to the closing quote. The answer is the text before it and what follows it. -/
def read : Reader → List Char → Option (List Char × List Char)
  | _, [] => none
  | .between, c :: rest =>
    if c = '"' then some ([], rest)
    else if c = '\\' then read .backslash rest
    else andRead c (read .between rest)
  | .backslash, c :: rest =>
    if c = 'u' then read .letter rest else andRead (unescape c) (read .between rest)
  | .letter, c :: rest => if c = '{' then read (.digits 0) rest else none
  | .digits value, c :: rest =>
    if c = '}' then andRead (Char.ofNat value) (read .between rest)
    else read (.digits (16 * value + hexDigit c)) rest

/-- Reads a quoted text, and answers with what follows it as well. -/
def readQuoted? : List Char → Option (List Char × List Char)
  | '"' :: rest => read .between rest
  | _ => none

/-! ## What is quoted is read back -/

theorem read_digits {digits : List Char} (h : '}' ∉ digits) (value : Nat) (rest : List Char) :
    read (.digits value) (digits ++ '}' :: rest) =
      andRead (Char.ofNat (hexValue value digits)) (read .between rest) := by
  induction digits generalizing value with
  | nil => exact if_pos rfl
  | cons c digits ih =>
    have hc : c ≠ '}' := (List.ne_of_not_mem_cons h).symm
    rw [List.cons_append, read, if_neg hc, ih (List.not_mem_of_not_mem_cons h)]
    rfl

theorem read_codePoint (c : Char) (rest : List Char) :
    read .between (codePoint c ++ rest) = andRead c (read .between rest) := by
  have hbrace : '}' ∉ Nat.toDigits 16 c.toNat := fun h => (ne_of_mem_toDigits h).1 rfl
  have hdigits := read_digits hbrace 0 rest
  rw [hexValue_toDigits, Char.ofNat_toNat] at hdigits
  rw [← hdigits]
  simp [codePoint, read]

/-- **The three forms of a character** inside of double quotes: an escape of two characters, a code
point, or the character itself. -/
theorem escape_cases (c : Char) :
    (∃ d, escape '"' c = ['\\', d] ∧ d ≠ 'u' ∧ d ≠ '\n' ∧ unescape d = c) ∨
      escape '"' c = codePoint c ∨
      (escape '"' c = [c] ∧ c ≠ '"' ∧ c ≠ '\\' ∧ c ≠ '\n') := by
  by_cases hnul : c = '\x00'
  · exact .inl ⟨'0', if_pos hnul, by decide, by decide, hnul.symm⟩
  by_cases htab : c = '\t'
  · exact .inl ⟨'t', by simp [escape, htab], by decide, by decide, htab.symm⟩
  by_cases hline : c = '\n'
  · exact .inl ⟨'n', by simp [escape, hline], by decide, by decide, hline.symm⟩
  by_cases hreturn : c = '\r'
  · exact .inl ⟨'r', by simp [escape, hreturn], by decide, by decide, hreturn.symm⟩
  by_cases hself : c = '\\' ∨ c = '"'
  · refine .inl ⟨c, by simp [escape, hnul, htab, hline, hreturn, hself], ?_⟩
    rcases hself with rfl | rfl <;> decide
  obtain ⟨hbackslash, hquote⟩ := not_or.mp hself
  by_cases hshown : (isUnprintable c || isCombining c) = true
  · exact .inr (.inl (by simp [escape, hnul, htab, hline, hreturn, hself, hshown]))
  · exact .inr (.inr ⟨by simp [escape, hnul, htab, hline, hreturn, hself, hshown], hquote,
      hbackslash, hline⟩)

/-- **An escaped character is read back.** -/
theorem read_escape (c : Char) (rest : List Char) :
    read .between (escape '"' c ++ rest) = andRead c (read .between rest) := by
  rcases escape_cases c with ⟨d, hc, hd, -, rfl⟩ | hc | ⟨hc, hquote, hbackslash, -⟩
  · rw [hc]
    simp [read, hd]
  · rw [hc, read_codePoint]
  · rw [hc, List.singleton_append, read, if_neg hquote, if_neg hbackslash]

/-- **A quoted text is read back**, whatever follows it. -/
theorem readQuoted?_quoteText (text rest : List Char) :
    readQuoted? (quoteText text ++ rest) = some (text, rest) := by
  have hread : read .between (text.flatMap (escape '"') ++ '"' :: rest) = some (text, rest) := by
    induction text with
    | nil => exact if_pos rfl
    | cons c text ih =>
      rw [List.flatMap_cons, List.append_assoc, read_escape, ih]
      rfl
  unfold quoteText
  rw [List.append_assoc, List.singleton_append]
  exact hread

example : readQuoted? "\"\\u\x7b301\x7d\\\"\" b".toList = some (['\u0301', '"'], [' ', 'b']) := by
  decide

/-! ## A quoted text is on one line -/

theorem newline_not_mem_escape (c : Char) : '\n' ∉ escape '"' c := by
  rcases escape_cases c with ⟨d, hc, -, hline, -⟩ | hc | ⟨hc, -, -, hline⟩
  · simpa [hc] using hline.symm
  · have hdigits : '\n' ∉ Nat.toDigits 16 c.toNat := fun h => (ne_of_mem_toDigits h).2 rfl
    simpa [hc, codePoint] using hdigits
  · simpa [hc] using hline.symm

theorem newline_not_mem_quoteText (text : List Char) : '\n' ∉ quoteText text := by
  have hbody : '\n' ∉ text.flatMap (escape '"') := by
    rw [List.mem_flatMap]
    rintro ⟨c, -, hc⟩
    exact newline_not_mem_escape c hc
  simp [quoteText, hbody]

end LoxTokenizer.Text
