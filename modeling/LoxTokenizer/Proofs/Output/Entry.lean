import LoxTokenizer.Output.Listing
import LoxTokenizer.Proofs.Lexeme.Recognition
import LoxTokenizer.Proofs.Text.Unquoted

/-!
# A token on a line, read back

A listing in words and one in columns give a line to each token. A line is read from the left: the
place, where there is one, is two numbers with a colon between them, however wide they are; the name
of a kind goes up to the next space; and the lexeme is the quoted text behind it. What follows the
lexeme, which is free text again, is not looked at.

* `Entry`: what a line says of a token.
* **`readLine?_render`**, **`readLine?_row`**: it is read back.
* `newline_not_mem_render`, `newline_not_mem_row`: no line feed is in the line, whatever the lexeme
  and the value hold.
-/

namespace LoxTokenizer.Listing

open Text

/-- What a line says of a token. A listing in words has no places. -/
structure Entry where
  place : Option (Nat × Nat)
  kind : TokenKind
  lexeme : String
  deriving DecidableEq, Repr

/-! ## The reader -/

/-- Reads a number, and answers with what follows it as well. -/
def readNat (text : List Char) : Nat × List Char :=
  (Nat.ofDigitChars 10 (text.takeWhile Char.isDigit) 0, text.dropWhile Char.isDigit)

/-- A text without the spaces it starts with. -/
def skipSpaces (text : List Char) : List Char :=
  text.dropWhile (· == ' ')

/-- Reads the name of a kind, spaces and a quoted lexeme. -/
def readKind? (place : Option (Nat × Nat)) (text : List Char) : Option Entry :=
  (TokenKind.ofName? (String.ofList (text.takeWhile (· != ' ')))).bind fun kind =>
    (readQuoted? (skipSpaces (text.dropWhile (· != ' ')))).map fun (lexeme, _) =>
      ⟨place, kind, String.ofList lexeme⟩

/-- Reads a line in columns: two numbers with a colon between them, and the rest. -/
def readRow? (line : List Char) : Option Entry :=
  match readNat (skipSpaces line) with
  | (_, []) => none
  | (first, c :: rest) =>
    if c = ':' then readKind? (some (first, (readNat rest).1)) (skipSpaces (readNat rest).2)
    else none

/-- Reads a line of a listing in words or in columns. -/
def readLine? : OutputFormat → List Char → Option Entry
  | .text, line => readKind? none line
  | .debug, line => readRow? line
  | .json, _ => none

/-! ## Runs that are read -/

theorem readNat_append (n : Nat) {behind : List Char}
    (hb : ∀ c ∈ behind.head?, c.isDigit = false) :
    readNat (Nat.toDigits 10 n ++ behind) = (n, behind) := by
  have hdigits : ∀ c ∈ Nat.toDigits 10 n, c.isDigit = true := fun c hc =>
    Nat.isDigit_of_mem_toDigits (by decide) (by decide) hc
  unfold readNat
  rw [Lexeme.takeWhile_append hdigits hb, Lexeme.dropWhile_append hdigits hb,
    Nat.ofDigitChars_ten_toDigits]

theorem skipSpaces_append (n : Nat) {behind : List Char} (hb : ' ' ∉ behind.head?) :
    skipSpaces (List.replicate n ' ' ++ behind) = behind := by
  refine Lexeme.dropWhile_append (fun c hc => ?_) fun c hc => ?_
  · rw [List.eq_of_mem_replicate hc]
    rfl
  · rw [beq_eq_false_iff_ne]
    rintro rfl
    exact hb hc

/-- A text without spaces ends the spaces before it. -/
theorem space_not_mem_head {text : List Char} (h : ' ' ∉ text) (hne : text ≠ [])
    (behind : List Char) : ' ' ∉ (text ++ behind).head? := by
  obtain ⟨c, rest, rfl⟩ := List.exists_cons_of_ne_nil hne
  rintro ⟨⟩
  exact h List.mem_cons_self

theorem not_mem_toDigits {c : Char} (h : c.isDigit = false) (n : Nat) : c ∉ Nat.toDigits 10 n := by
  intro hc
  rw [Nat.isDigit_of_mem_toDigits (by decide) (by decide) hc] at h
  cases h

/-- The name of a kind is a word. -/
theorem name_isWord (kind : TokenKind) :
    kind.name.toList ≠ [] ∧ ' ' ∉ kind.name.toList ∧ '\n' ∉ kind.name.toList := by
  cases kind <;> decide

theorem readKind?_append (place : Option (Nat × Nat)) (kind : TokenKind) (n : Nat)
    (lexeme : String) (behind : List Char) :
    readKind? place (kind.name.toList ++
      (List.replicate (n + 1) ' ' ++ (quoteText lexeme.toList ++ behind))) =
      some ⟨place, kind, lexeme⟩ := by
  have hname : ∀ c ∈ kind.name.toList, (c != ' ') = true := by
    intro c hc
    rw [bne_iff_ne]
    rintro rfl
    exact (name_isWord kind).2.1 hc
  unfold readKind?
  rw [Lexeme.takeWhile_append hname (by simp [List.replicate_succ]),
    Lexeme.dropWhile_append hname (by simp [List.replicate_succ]), String.ofList_toList,
    TokenKind.ofName?_name, skipSpaces_append (n + 1) (by simp [quoteText]),
    readQuoted?_quoteText]
  simp

/-! ## Lines that are read back -/

theorem toList_lay_right (width : Nat) (s : String) : ((Field.spaces .right width).lay s).toList =
    List.replicate (width - s.toList.length) ' ' ++ s.toList := by
  simp [Field.lay, Field.layOut, Field.spaces, Field.cut, Field.before]

theorem toList_lay_left (width : Nat) (s : String) : ((Field.spaces .left width).lay s).toList =
    s.toList ++ List.replicate (width - s.toList.length) ' ' := by
  simp [Field.lay, Field.layOut, Field.spaces, Field.cut, Field.before]

/-- **A line in words** is read back: the kind and the lexeme. -/
theorem readLine?_render (t : Token) (behind : List Char) :
    readLine? .text (t.render.toList ++ behind) = some ⟨none, t.kind, t.lexeme⟩ := by
  have h := readKind?_append none t.kind 0 t.lexeme ([' '] ++ t.literal.render.toList ++ behind)
  unfold readLine?
  rw [← h]
  simp [Token.render, quoted]

/-- The columns of a line, one behind the other. -/
theorem toList_row (t : Token) : t.row.toList =
    List.replicate (4 - (toString t.line).toList.length) ' ' ++ (Nat.toDigits 10 t.line ++
      ':' :: (Nat.toDigits 10 t.column ++
        (List.replicate (3 - (toString t.column).toList.length + 1) ' ' ++ (t.kind.name.toList ++
          (List.replicate (15 - t.kind.name.toList.length + 1) ' ' ++
            quoteText t.lexeme.toList))))) := by
  have hdigits : ∀ n : Nat, (toString n).toList = Nat.toDigits 10 n := by
    intro n
    rw [Nat.toString_eq_ofList_toDigits, String.toList_ofList]
  unfold Token.row quoted
  simp only [String.toList_append, toList_lay_right, toList_lay_left, hdigits,
    String.toList_ofList, List.replicate_succ', List.append_assoc]
  rfl

/-- **A line in columns** is read back: the place, the kind and the lexeme. -/
theorem readLine?_row (t : Token) (behind : List Char) :
    readLine? .debug (t.row.toList ++ behind) =
      some ⟨some (t.line, t.column), t.kind, t.lexeme⟩ := by
  obtain ⟨hne, hname, -⟩ := name_isWord t.kind
  rw [toList_row]
  simp only [List.append_assoc, List.cons_append]
  show readRow? _ = _
  unfold readRow?
  rw [skipSpaces_append _ (space_not_mem_head (not_mem_toDigits rfl _) Nat.toDigits_ne_nil _),
    readNat_append _ (by simp)]
  dsimp only
  rw [if_pos rfl, readNat_append _ (by simp [List.replicate_succ]),
    skipSpaces_append _ (space_not_mem_head hname hne _), readKind?_append]

/-! ## Lines without a line feed -/

/-- The shortest digits of a number are digits of a natural number. -/
theorem newline_not_mem_digits (tie : Tie) (word : Nat) :
    '\n' ∉ (Shortest.ofWord tie word).digits := by
  have hdecimal : ∀ d exponent, '\n' ∉ (Shortest.decimalOf d exponent).digits := by
    intro d exponent h
    have hmem := (List.dropWhile_sublist _).subset (List.mem_reverse.mp h)
    exact not_mem_toDigits rfl d (List.mem_reverse.mp hmem)
  unfold Shortest.ofWord
  dsimp only
  generalize hfound : List.findSome? _ _ = found
  cases found with
  | none => decide
  | some decimal =>
    obtain ⟨more, -, hmore⟩ := List.exists_of_findSome?_eq_some hfound
    obtain ⟨d, -, rfl⟩ := Option.map_eq_some_iff.mp hmore
    exact hdecimal _ _

theorem newline_not_mem_writePositional {d : Decimal} (h : '\n' ∉ d.digits) :
    '\n' ∉ NumberStyle.writePositional d := by
  have htake : ∀ n, '\n' ∉ d.digits.take n := fun n hn => h (List.mem_of_mem_take hn)
  have hdrop : ∀ n, '\n' ∉ d.digits.drop n := fun n hn => h (List.mem_of_mem_drop hn)
  unfold NumberStyle.writePositional
  split
  · simp [h, List.mem_replicate]
  · dsimp only
    split <;> simp [htake, hdrop, List.mem_replicate]

theorem newline_not_mem_writeScientific (plusSign : Bool) {d : Decimal} (h : '\n' ∉ d.digits) :
    '\n' ∉ NumberStyle.writeScientific plusSign d := by
  have htake : ∀ n, '\n' ∉ d.digits.take n := fun n hn => h (List.mem_of_mem_take hn)
  have hdrop : ∀ n, '\n' ∉ d.digits.drop n := fun n hn => h (List.mem_of_mem_drop hn)
  have hexponent : '\n' ∉ Nat.toDigits 10 d.exponent.natAbs := not_mem_toDigits rfl _
  have hfraction : '\n' ∉ (if (d.digits.drop 1).isEmpty then [] else '.' :: d.digits.drop 1) := by
    split
    · exact List.not_mem_nil
    · exact List.not_mem_cons_of_ne_of_not_mem (by decide) (hdrop 1)
  have hsign : '\n' ∉ (if d.exponent < 0 then ['-'] else if plusSign then ['+'] else []) := by
    split
    · decide
    · split <;> decide
  unfold NumberStyle.writeScientific
  simp only [List.mem_append, not_or]
  exact ⟨⟨⟨⟨htake 1, hfraction⟩, by decide⟩, hsign⟩, hexponent⟩

theorem newline_not_mem_write (value : Binary64) :
    '\n' ∉ (NumberStyle.listing.write value).toList := by
  have hdigits := newline_not_mem_digits NumberStyle.listing.tie value.word
  unfold NumberStyle.write
  split
  · decide
  split
  · decide
  dsimp only
  rw [String.toList_ofList]
  split
  · exact newline_not_mem_writePositional hdigits
  · exact newline_not_mem_writeScientific _ hdigits

theorem newline_not_mem_quoted (s : String) : '\n' ∉ (quoted s).toList := by
  rw [quoted, String.toList_ofList]
  exact newline_not_mem_quoteText s.toList

theorem newline_not_mem_row (t : Token) : '\n' ∉ t.row.toList := by
  have hname := (name_isWord t.kind).2.2
  have hlexeme := newline_not_mem_quoteText t.lexeme.toList
  have hdigits : ∀ n, '\n' ∉ Nat.toDigits 10 n := not_mem_toDigits rfl
  rw [toList_row]
  simp [hdigits, hname, hlexeme, List.mem_replicate]

theorem newline_not_mem_render (t : Token) : '\n' ∉ t.render.toList := by
  have hname := (name_isWord t.kind).2.2
  have hlexeme := newline_not_mem_quoted t.lexeme
  have hliteral : '\n' ∉ t.literal.render.toList := by
    cases t.literal with
    | number value => exact newline_not_mem_write value
    | text body => exact newline_not_mem_quoted body
    | lexeme raw => exact newline_not_mem_quoted raw
  simp [Token.render, hname, hlexeme, hliteral]

end LoxTokenizer.Listing
