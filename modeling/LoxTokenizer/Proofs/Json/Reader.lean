import LoxTokenizer.Json
import LoxTokenizer.Proofs.Json.Numeral

/-!
# JSON, read back

A reader takes a text character by character. Characters make up symbols: marks, strings and words,
with white space between them. Symbols make up values, with a stack of the arrays and objects that
are open. Whatever the format forbids is refused: a comma too many or too few, a control in a
string, an unknown escape, a numeral with an idle zero, a text behind the value. Of what the format
allows, truth values, minus signs and surrogate pairs are refused as well, for none is written here.

The pretty form of a value is read back as that value. That is shown for each construct of the
format by what it does to a state of the reader, whatever is open around it and whatever follows.

* `Json.read?`: the reader.
* `Json.Readable`: every number of a value is a numeral.
* `Reader.run_escape`: an escaped character is read back.
* **`Reader.reads_of_readable`**: the pretty form leads from before a value to behind it.
* **`Json.read?_render`**: a value is read back.
-/

namespace LoxTokenizer.Json

namespace Reader

/-! ## Symbols -/

/-- What a text is made of. A string and a word are told by their characters. -/
inductive Symbol where
  | openArray | closeArray | openObject | closeObject | comma | colon
  | string (text : List Char)
  | word (text : List Char)
  deriving DecidableEq, Repr

/-- The symbol of a character that is one on its own. -/
def mark? : Char → Option Symbol
  | '[' => some .openArray
  | ']' => some .closeArray
  | '{' => some .openObject
  | '}' => some .closeObject
  | ',' => some .comma
  | ':' => some .colon
  | _ => none

/-- White space. -/
def isSpace (c : Char) : Bool :=
  c == ' ' || c == '\t' || c == '\n' || c == '\r'

/-- Whether a character may stand in a word. -/
def isWordPart (c : Char) : Bool :=
  (mark? c).isNone && !isSpace c && c != '"'

/-- The value of a hexadecimal digit. -/
def hexDigit? (c : Char) : Option Nat :=
  if '0' ≤ c ∧ c ≤ '9' then some (c.toNat - '0'.toNat)
  else if 'a' ≤ c ∧ c ≤ 'f' then some (c.toNat - 'a'.toNat + 10)
  else if 'A' ≤ c ∧ c ≤ 'F' then some (c.toNat - 'A'.toNat + 10)
  else none

/-- The character of an escape of two characters. -/
def unescape? : Char → Option Char
  | '"' => some '"'
  | '\\' => some '\\'
  | '/' => some '/'
  | 'b' => some '\x08'
  | 't' => some '\t'
  | 'n' => some '\n'
  | 'f' => some '\x0c'
  | 'r' => some '\r'
  | _ => none

/-- Where a reader is within a symbol, and what it has read of it. -/
inductive Mode where
  | between
  | word (read : List Char)
  | string (read : List Char)
  /-- Behind a backslash. -/
  | escape (read : List Char)
  /-- Within a code point, of which so many digits are left. -/
  | code (read : List Char) (value left : Nat)
  deriving DecidableEq, Repr

/-- A character between symbols: the symbol that it is, and what it starts. -/
def Mode.start (c : Char) : List Symbol × Mode :=
  match mark? c with
  | some symbol => ([symbol], .between)
  | none =>
    if isSpace c then ([], .between)
    else if c = '"' then ([], .string [])
    else ([], .word [c])

/-- Takes a character. The answer is the symbols that end with it and what goes on. -/
def Mode.next? : Mode → Char → Option (List Symbol × Mode)
  | .between, c => some (start c)
  | .word read, c =>
    if isWordPart c then some ([], .word (read ++ [c]))
    else some (.word read :: (start c).1, (start c).2)
  | .string read, c =>
    if c = '"' then some ([.string read], .between)
    else if c = '\\' then some ([], .escape read)
    else if c.toNat < 0x20 then none
    else some ([], .string (read ++ [c]))
  | .escape read, c =>
    if c = 'u' then some ([], .code read 0 4)
    else (unescape? c).map fun d => ([], .string (read ++ [d]))
  | .code read value left, c =>
    (hexDigit? c).bind fun digit =>
      let value := 16 * value + digit
      if 1 < left then some ([], .code read value (left - 1))
      else if value.isValidChar then some ([], .string (read ++ [Char.ofNat value]))
      else none

/-! ## Values -/

/-- An array or object that is open, with what has been read of it. -/
inductive Frame where
  | items (read : List Json)
  | member (read : List (String × Json)) (key : String)

/-- Where a reader is between symbols, and what is open around that. -/
inductive Place where
  /-- A value has to follow. -/
  | value (outer : List Frame)
  /-- The first item of an array has to follow, or its end. -/
  | firstItem (outer : List Frame)
  /-- The first key of an object has to follow, or its end. -/
  | firstKey (outer : List Frame)
  /-- Another key has to follow. -/
  | key (read : List (String × Json)) (outer : List Frame)
  /-- The colon behind a key has to follow. -/
  | colon (read : List (String × Json)) (key : String) (outer : List Frame)
  /-- A value has ended. -/
  | behind (value : Json) (outer : List Frame)

/-- The value of a word. -/
def word? (text : List Char) : Option Json :=
  if text = ['n', 'u', 'l', 'l'] then some .null
  else (numeral? text).map fun _ => .number (String.ofList text)

/-- Starts a value. -/
def begin? (outer : List Frame) : Symbol → Option Place
  | .openArray => some (.firstItem outer)
  | .openObject => some (.firstKey outer)
  | .string text => some (.behind (.string (String.ofList text)) outer)
  | .word text => (word? text).map fun value => .behind value outer
  | _ => none

/-- Takes a symbol. -/
def step : Place → Symbol → Option Place
  | .value outer, symbol => begin? outer symbol
  | .firstItem outer, .closeArray => some (.behind (.array []) outer)
  | .firstItem outer, symbol => begin? (.items [] :: outer) symbol
  | .firstKey outer, .closeObject => some (.behind (.object []) outer)
  | .firstKey outer, .string key => some (.colon [] (String.ofList key) outer)
  | .key read outer, .string key => some (.colon read (String.ofList key) outer)
  | .colon read key outer, .colon => some (.value (.member read key :: outer))
  | .behind value (.items read :: outer), .comma =>
    some (.value (.items (read ++ [value]) :: outer))
  | .behind value (.items read :: outer), .closeArray =>
    some (.behind (.array (read ++ [value])) outer)
  | .behind value (.member read key :: outer), .comma =>
    some (.key (read ++ [(key, value)]) outer)
  | .behind value (.member read key :: outer), .closeObject =>
    some (.behind (.object (read ++ [(key, value)])) outer)
  | _, _ => none

/-! ## The reader -/

/-- Where a reader is. -/
structure State where
  mode : Mode
  place : Place

/-- Takes a character. -/
def State.next? (s : State) (c : Char) : Option State :=
  (s.mode.next? c).bind fun (symbols, mode) =>
    (symbols.foldlM step s.place).map fun place => ⟨mode, place⟩

/-- Takes a text. -/
def run (s : State) (text : List Char) : Option State :=
  text.foldlM State.next? s

/-- The value that has been read, if nothing is open. -/
def result? : State → Option Json
  | ⟨.between, .behind value []⟩ => some value
  | _ => none

end Reader

open Reader

/-- **The reader.** A line feed is put behind the text to end a word there. -/
def read? (text : String) : Option Json :=
  (run ⟨.between, .value []⟩ (text.toList ++ ['\n'])).bind result?

/-- Every number of a value is a numeral. -/
inductive Readable : Json → Prop where
  | null : Readable .null
  | number {numeral : String} {n : Scientific} (h : numeral? numeral.toList = some n) :
    Readable (.number numeral)
  | string (s : String) : Readable (.string s)
  | array {items : List Json} (h : ∀ item ∈ items, Readable item) : Readable (.array items)
  | object {members : List (String × Json)} (h : ∀ entry ∈ members, Readable entry.2) :
    Readable (.object members)

namespace Reader

variable {p p' : Place} {outer : List Frame} {c : Char} {rest : List Char} {symbol : Symbol}

theorem run_cons (s : State) (c : Char) (rest : List Char) :
    run s (c :: rest) = (s.next? c).bind fun s' => run s' rest :=
  List.foldlM_cons

/-! ## Symbols that are read -/

theorem run_mark (hc : mark? c = some symbol) (hp : step p symbol = some p') :
    run ⟨.between, p⟩ (c :: rest) = run ⟨.between, p'⟩ rest := by
  simp [run_cons, State.next?, Mode.next?, Mode.start, hc, hp]

theorem run_space (hc : mark? c = none) (hspace : isSpace c = true) :
    run ⟨.between, p⟩ (c :: rest) = run ⟨.between, p⟩ rest := by
  simp [run_cons, State.next?, Mode.next?, Mode.start, hc, hspace]

theorem run_newLine (level : Nat) : run ⟨.between, p⟩ (newLine level ++ rest) =
    run ⟨.between, p⟩ rest := by
  unfold newLine
  rw [List.cons_append, run_space rfl rfl]
  generalize 2 * level = n
  induction n with
  | zero => rfl
  | succ n ih => rw [List.replicate_succ, List.cons_append, run_space rfl rfl, ih]

theorem run_wordParts {parts : List Char} (hparts : ∀ d ∈ parts, isWordPart d = true)
    (read rest : List Char) :
    run ⟨.word read, p⟩ (parts ++ rest) = run ⟨.word (read ++ parts), p⟩ rest := by
  induction parts generalizing read with
  | nil => simp
  | cons d parts ih =>
    have hd : isWordPart d = true := hparts d List.mem_cons_self
    have hmore := ih (fun c hc => hparts c (List.mem_cons_of_mem d hc)) (read ++ [d])
    rw [List.append_assoc, List.singleton_append] at hmore
    simp [run_cons, State.next?, Mode.next?, hd, hmore]

/-- A character that is no part of a word ends it, and is taken as if it stood on its own. -/
theorem run_wordEnd {word : List Char} (hc : isWordPart c = false)
    (hp : step p (.word word) = some p') :
    run ⟨.word word, p⟩ (c :: rest) = run ⟨.between, p'⟩ (c :: rest) := by
  simp [run_cons, State.next?, Mode.next?, hc, hp]

/-- **A word is read back** up to a character that is no part of it. -/
theorem run_word {word : List Char} (hne : word ≠ []) (hword : ∀ d ∈ word, isWordPart d = true)
    (hc : isWordPart c = false) (hp : step p (.word word) = some p') :
    run ⟨.between, p⟩ (word ++ c :: rest) = run ⟨.between, p'⟩ (c :: rest) := by
  obtain ⟨d, parts, rfl⟩ := List.exists_cons_of_ne_nil hne
  have hstart : Mode.start d = ([], .word [d]) := by
    have hd := hword d List.mem_cons_self
    simp only [isWordPart, Bool.and_eq_true, Option.isNone_iff_eq_none, Bool.not_eq_true',
      bne_iff_ne] at hd
    simp [Mode.start, hd]
  have hparts := run_wordParts (p := p) (fun c hc => hword c (List.mem_cons_of_mem d hc)) [d]
    (c :: rest)
  rw [← run_wordEnd hc hp, ← List.singleton_append, ← hparts, List.append_assoc,
    List.singleton_append, run_cons]
  simp [State.next?, Mode.next?, hstart]

/-! ## Strings -/

theorem hexDigit?_digitChar {d : Nat} (h : d < 16) : hexDigit? (Nat.digitChar d) = some d := by
  revert d
  decide

/-- **The three forms of a character** in a string: an escape of two characters, a code point, or
the character itself. -/
theorem escape_cases (c : Char) :
    (∃ d, Json.escape c = ['\\', d] ∧ d ≠ 'u' ∧ unescape? d = some c) ∨
      (Json.escape c = ['\\', 'u', '0', '0'] ++ hexByte c.toNat ∧ c.toNat < 0x20) ∨
      (Json.escape c = [c] ∧ c ≠ '"' ∧ c ≠ '\\' ∧ ¬ c.toNat < 0x20) := by
  have hpair : ∀ d e, Json.escape d = ['\\', e] → e ≠ 'u' → unescape? e = some d → c = d →
      ∃ e, Json.escape c = ['\\', e] ∧ e ≠ 'u' ∧ unescape? e = some c := by
    rintro d e hescape hletter hunescape rfl
    exact ⟨e, hescape, hletter, hunescape⟩
  by_cases hquote : c = '"'
  · exact .inl (hpair '"' '"' rfl (by decide) rfl hquote)
  by_cases hbackslash : c = '\\'
  · exact .inl (hpair '\\' '\\' rfl (by decide) rfl hbackslash)
  by_cases hbackspace : c = '\x08'
  · exact .inl (hpair '\x08' 'b' rfl (by decide) rfl hbackspace)
  by_cases htab : c = '\t'
  · exact .inl (hpair '\t' 't' rfl (by decide) rfl htab)
  by_cases hline : c = '\n'
  · exact .inl (hpair '\n' 'n' rfl (by decide) rfl hline)
  by_cases hpage : c = '\x0c'
  · exact .inl (hpair '\x0c' 'f' rfl (by decide) rfl hpage)
  by_cases hreturn : c = '\r'
  · exact .inl (hpair '\r' 'r' rfl (by decide) rfl hreturn)
  have hescape : Json.escape c =
      if c.toNat < 0x20 then ['\\', 'u', '0', '0'] ++ hexByte c.toNat else [c] := by
    simp [Json.escape, hquote, hbackslash, hbackspace, htab, hline, hpage, hreturn]
  by_cases hcontrol : c.toNat < 0x20
  · exact .inr (.inl ⟨by rw [hescape, if_pos hcontrol], hcontrol⟩)
  · exact .inr (.inr ⟨by rw [hescape, if_neg hcontrol], hquote, hbackslash, hcontrol⟩)

/-- **An escaped character is read back.** -/
theorem run_escape (c : Char) (read rest : List Char) :
    run ⟨.string read, p⟩ (Json.escape c ++ rest) = run ⟨.string (read ++ [c]), p⟩ rest := by
  rcases escape_cases c with ⟨d, hescape, hletter, hunescape⟩ | ⟨hescape, hcontrol⟩ |
    ⟨hescape, hquote, hbackslash, hcontrol⟩
  · rw [hescape]
    simp [run_cons, State.next?, Mode.next?, hletter, hunescape]
  · have hhigh : hexDigit? (Nat.digitChar (c.toNat / 16)) = some (c.toNat / 16) :=
      hexDigit?_digitChar (by omega)
    have hlow : hexDigit? (Nat.digitChar (c.toNat % 16)) = some (c.toNat % 16) :=
      hexDigit?_digitChar (by omega)
    have hzero : hexDigit? '0' = some 0 := by decide
    have hvalid : c.toNat.isValidChar := c.valid
    rw [hescape]
    simp [run_cons, State.next?, Mode.next?, hexByte, hzero, hhigh, hlow, Nat.div_add_mod, hvalid]
  · rw [hescape]
    simp [run_cons, State.next?, Mode.next?, hquote, hbackslash, hcontrol]

/-- **A string is read back**, and nothing that it holds ends it. -/
theorem run_quote {s : String} (hp : step p (.string s.toList) = some p') :
    run ⟨.between, p⟩ (quote s ++ rest) = run ⟨.between, p'⟩ rest := by
  have hbody : ∀ (text read : List Char),
      run ⟨.string read, p⟩ (text.flatMap Json.escape ++ '"' :: rest) =
        run ⟨.string (read ++ text), p⟩ ('"' :: rest) := by
    intro text
    induction text with
    | nil => simp
    | cons c text ih =>
      intro read
      rw [List.flatMap_cons, List.append_assoc, run_escape, ih, List.append_assoc,
        List.singleton_append]
  have hstart : run ⟨.between, p⟩ (quote s ++ rest) =
      run ⟨.string [], p⟩ (s.toList.flatMap Json.escape ++ '"' :: rest) := by
    simp [quote, run_cons, State.next?, Mode.next?, Mode.start, mark?, isSpace]
  rw [hstart, hbody]
  simp [run_cons, State.next?, Mode.next?, hp]

/-! ## Numerals are words -/

theorem isWordPart_of_isDigit (hc : CharClass.isDigit c = true) : isWordPart c = true := by
  have hascii : ∀ n < 58, CharClass.isDigit (Char.ofNat n) = true →
      isWordPart (Char.ofNat n) = true := by decide
  have hle : c.toNat ≤ 57 := (Char.isDigit_iff_toNat.mp hc).2
  have hpart := hascii c.toNat (by omega)
  rw [Char.ofNat_toNat] at hpart
  exact hpart hc

theorem isWordPart_of_digits? {text : List Char} {n : ℕ} (h : digits? text = some n) :
    ∀ c ∈ text, isWordPart c = true := by
  unfold digits? at h
  split at h
  · cases h
  · next hdigits =>
    simp only [Bool.or_eq_true, Bool.not_eq_true', not_or, Bool.not_eq_false, List.all_eq_true]
      at hdigits
    exact fun c hc => isWordPart_of_isDigit (hdigits.2 c hc)

theorem isWordPart_of_signed? {text : List Char} {e : ℤ} (h : signed? text = some e) :
    ∀ c ∈ text, isWordPart c = true := by
  have hdigits : ∀ {digits : List Char} {f : ℕ → ℤ}, (digits? digits).map f = some e →
      ∀ c ∈ digits, isWordPart c = true := by
    intro digits f hmap
    obtain ⟨n, hn, -⟩ := Option.map_eq_some_iff.mp hmap
    exact isWordPart_of_digits? hn
  unfold signed? at h
  split at h
  · exact List.forall_mem_cons.mpr ⟨by decide, hdigits h⟩
  · exact List.forall_mem_cons.mpr ⟨by decide, hdigits h⟩
  · exact hdigits h

theorem isWordPart_of_exponent? {text : List Char} {e : ℤ} (h : exponent? text = some e) :
    ∀ c ∈ text, isWordPart c = true := by
  cases text with
  | nil => simp
  | cons mark rest =>
    rw [exponent?] at h
    split at h
    case isFalse => cases h
    case isTrue hmark =>
      refine List.forall_mem_cons.mpr ⟨?_, isWordPart_of_signed? h⟩
      rcases hmark with rfl | rfl <;> decide

theorem isWordPart_of_fraction? {whole rest : List Char} {n : Scientific}
    (h : fraction? whole rest = some n) : ∀ c ∈ rest, isWordPart c = true := by
  unfold fraction? at h
  split at h
  case h_1 rest =>
    dsimp only at h
    split at h
    case isTrue => cases h
    case isFalse =>
      obtain ⟨e, he, -⟩ := Option.map_eq_some_iff.mp h
      rw [List.forall_mem_cons,
        ← List.takeWhile_append_dropWhile (p := CharClass.isDigit) (l := rest),
        List.forall_mem_append]
      exact ⟨by decide, fun c hc => isWordPart_of_isDigit (List.mem_takeWhile_imp hc),
        isWordPart_of_exponent? he⟩
  case h_2 =>
    obtain ⟨e, he, -⟩ := Option.map_eq_some_iff.mp h
    exact isWordPart_of_exponent? he

/-- A numeral has no character that would end a word. -/
theorem isWordPart_of_numeral? {text : List Char} {n : Scientific} (h : numeral? text = some n) :
    text ≠ [] ∧ ∀ c ∈ text, isWordPart c = true := by
  unfold numeral? at h
  split at h
  case isFalse => cases h
  case isTrue hwhole =>
    constructor
    · rintro rfl
      exact absurd hwhole (by decide)
    · rw [← List.takeWhile_append_dropWhile (p := CharClass.isDigit) (l := text),
        List.forall_mem_append]
      exact ⟨fun c hc => isWordPart_of_isDigit (List.mem_takeWhile_imp hc),
        isWordPart_of_fraction? h⟩

/-! ## Values that are read -/

/-- In the place `p`, a symbol starts a value within what is open, unless it closes an array. -/
def Expects (p : Place) (outer : List Frame) : Prop :=
  ∀ symbol, symbol ≠ .closeArray → step p symbol = begin? outer symbol

theorem expects_value (outer : List Frame) : Expects (.value outer) outer :=
  fun _ _ => rfl

theorem expects_firstItem (outer : List Frame) :
    Expects (.firstItem outer) (.items [] :: outer) := by
  intro symbol hsymbol
  cases symbol with
  | closeArray => exact absurd rfl hsymbol
  | _ => rfl

/-- **The pretty form is read**: it leads from before the value to behind it. -/
def Reads (value : Json) : Prop :=
  ∀ (level : ℕ) (p : Place) (outer : List Frame) (c : Char) (rest : List Char),
    Expects p outer → isWordPart c = false →
      run ⟨.between, p⟩ (value.pretty level ++ c :: rest) =
        run ⟨.between, .behind value outer⟩ (c :: rest)

theorem exists_head_items (level close : ℕ) (items : List Json) (rest : List Char) :
    ∃ c more, prettyItems level items ++ (newLine close ++ rest) = c :: more ∧
      isWordPart c = false := by
  cases items with
  | nil => exact ⟨_, _, rfl, by decide⟩
  | cons item items => exact ⟨_, _, rfl, by decide⟩

theorem exists_head_members (level close : ℕ) (members : List (String × Json))
    (rest : List Char) :
    ∃ c more, prettyMembers level members ++ (newLine close ++ rest) = c :: more ∧
      isWordPart c = false := by
  cases members with
  | nil => exact ⟨_, _, rfl, by decide⟩
  | cons entry members => exact ⟨_, _, rfl, by decide⟩

/-- The items behind a value, up to the end of the array. -/
theorem run_prettyItems {items : List Json} (h : ∀ item ∈ items, Reads item) (level close : ℕ)
    (read : List Json) (value : Json) (outer : List Frame) (rest : List Char) :
    run ⟨.between, .behind value (.items read :: outer)⟩
        (prettyItems level items ++ (newLine close ++ ']' :: rest)) =
      run ⟨.between, .behind (.array (read ++ value :: items)) outer⟩ rest := by
  induction items generalizing read value with
  | nil =>
    unfold prettyItems
    rw [List.nil_append, run_newLine]
    exact run_mark rfl rfl
  | cons item items ih =>
    obtain ⟨c, more, hmore, hc⟩ := exists_head_items level close items (']' :: rest)
    have hitem := h item List.mem_cons_self level _ _ c more
      (expects_value (.items (read ++ [value]) :: outer)) hc
    have hitems := ih (fun item hmem => h item (List.mem_cons_of_mem _ hmem)) (read ++ [value]) item
    rw [hmore, List.append_assoc, List.singleton_append] at hitems
    unfold prettyItems
    simp only [List.append_assoc, List.cons_append]
    rw [run_mark rfl rfl, run_newLine, hmore, hitem, hitems]

/-- A member, from the key on. -/
theorem run_member {key : String} {value : Json} {read : List (String × Json)}
    (hp : step p (.string key.toList) = some (.colon read key outer)) (h : Reads value)
    (level : ℕ) (hc : isWordPart c = false) (rest : List Char) :
    run ⟨.between, p⟩ (quote key ++ ':' :: ' ' :: (value.pretty level ++ c :: rest)) =
      run ⟨.between, .behind value (.member read key :: outer)⟩ (c :: rest) := by
  rw [run_quote hp, run_mark rfl rfl, run_space rfl rfl]
  exact h level _ _ c rest (expects_value _) hc

/-- The members behind a value, up to the end of the object. -/
theorem run_prettyMembers {members : List (String × Json)}
    (h : ∀ entry ∈ members, Reads entry.2) (level close : ℕ) (read : List (String × Json))
    (key : String) (value : Json) (outer : List Frame) (rest : List Char) :
    run ⟨.between, .behind value (.member read key :: outer)⟩
        (prettyMembers level members ++ (newLine close ++ '}' :: rest)) =
      run ⟨.between, .behind (.object (read ++ (key, value) :: members)) outer⟩ rest := by
  induction members generalizing read key value with
  | nil =>
    unfold prettyMembers
    rw [List.nil_append, run_newLine]
    exact run_mark rfl rfl
  | cons entry members ih =>
    obtain ⟨key', value'⟩ := entry
    obtain ⟨c, more, hmore, hc⟩ := exists_head_members level close members ('}' :: rest)
    have hkey : step (.key (read ++ [(key, value)]) outer) (.string key'.toList) =
        some (.colon (read ++ [(key, value)]) key' outer) := by
      rw [step, String.ofList_toList]
    have hmember := run_member hkey (h _ List.mem_cons_self) level hc more
    have hmembers := ih (fun entry hmem => h entry (List.mem_cons_of_mem _ hmem))
      (read ++ [(key, value)]) key' value'
    rw [hmore, List.append_assoc, List.singleton_append] at hmembers
    unfold prettyMembers
    simp only [List.append_assoc, List.cons_append, List.nil_append]
    rw [run_mark rfl rfl, run_newLine, hmore, hmember, hmembers]

theorem reads_null : Reads .null := by
  intro level p outer c rest hp hc
  have hnull : step p (.word ['n', 'u', 'l', 'l']) = some (.behind .null outer) := hp _ (by simp)
  have hpretty : Json.null.pretty level = ['n', 'u', 'l', 'l'] := rfl
  rw [hpretty]
  exact run_word (by simp) (by simp [isWordPart, mark?, isSpace]) hc hnull

theorem reads_number {numeral : String} {n : Scientific} (h : numeral? numeral.toList = some n) :
    Reads (.number numeral) := by
  intro level p outer c rest hp hc
  obtain ⟨hne, hpart⟩ := isWordPart_of_numeral? h
  have hnull : numeral.toList ≠ ['n', 'u', 'l', 'l'] := by
    intro hnull
    rw [hnull] at h
    cases h
  rw [pretty]
  refine run_word hne hpart hc ?_
  rw [hp _ (by simp), begin?, word?, if_neg hnull, h, String.ofList_toList]
  rfl

theorem reads_string (s : String) : Reads (.string s) := by
  intro level p outer c rest hp hc
  refine run_quote ?_
  rw [hp _ (by simp), begin?, String.ofList_toList]

/-- An array is read if its items are. -/
theorem reads_array {items : List Json} (h : ∀ item ∈ items, Reads item) :
    Reads (.array items) := by
  intro level p outer c rest hp hc
  have hopen : step p .openArray = some (.firstItem outer) := hp _ (by simp)
  cases items with
  | nil =>
    simp only [pretty, List.cons_append, List.nil_append]
    rw [run_mark rfl hopen]
    exact run_mark rfl rfl
  | cons item items =>
    obtain ⟨d, more, hmore, hd⟩ := exists_head_items (level + 1) level items (']' :: c :: rest)
    have hitem := h item List.mem_cons_self (level + 1) _ _ d more (expects_firstItem outer) hd
    have hitems := run_prettyItems (fun item hmem => h item (List.mem_cons_of_mem _ hmem))
      (level + 1) level [] item outer (c :: rest)
    rw [hmore] at hitems
    simp only [pretty, List.append_assoc, List.cons_append, List.nil_append]
    rw [run_mark rfl hopen, run_newLine, hmore, hitem, hitems]
    rfl

/-- An object is read if the values of its members are. -/
theorem reads_object {members : List (String × Json)} (h : ∀ entry ∈ members, Reads entry.2) :
    Reads (.object members) := by
  intro level p outer c rest hp hc
  have hopen : step p .openObject = some (.firstKey outer) := hp _ (by simp)
  cases members with
  | nil =>
    simp only [pretty, List.cons_append, List.nil_append]
    rw [run_mark rfl hopen]
    exact run_mark rfl rfl
  | cons entry members =>
    obtain ⟨key, value⟩ := entry
    obtain ⟨d, more, hmore, hd⟩ :=
      exists_head_members (level + 1) level members ('}' :: c :: rest)
    have hkey : step (.firstKey outer) (.string key.toList) = some (.colon [] key outer) := by
      rw [step, String.ofList_toList]
    have hmember := run_member hkey (h _ List.mem_cons_self) (level + 1) hd more
    have hmembers := run_prettyMembers (fun entry hmem => h entry (List.mem_cons_of_mem _ hmem))
      (level + 1) level [] key value outer (c :: rest)
    rw [hmore] at hmembers
    simp only [pretty, List.append_assoc, List.cons_append, List.nil_append]
    rw [run_mark rfl hopen, run_newLine, hmore, hmember, hmembers]
    rfl

/-- **Every value with numerals for numbers is read**, by what holds for each construct. -/
theorem reads_of_readable {value : Json} (h : Readable value) : Reads value := by
  induction h with
  | null => exact reads_null
  | number h => exact reads_number h
  | string s => exact reads_string s
  | array _ ih => exact reads_array ih
  | object _ ih => exact reads_object ih

end Reader

/-- **A value is read back** from its pretty form. -/
theorem read?_render {value : Json} (h : Readable value) : read? value.render = some value := by
  unfold read? render
  rw [String.toList_ofList, reads_of_readable h 0 _ _ '\n' [] (expects_value []) rfl,
    run_space rfl rfl]
  rfl

example : ["[1,]", "[01]", "\x7b\"a\" 1\x7d", "\"\\x\"", "null null"].all
    (fun text => (read? text).isNone) = true := by
  decide

end LoxTokenizer.Json
