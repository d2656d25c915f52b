import LoxTokenizer.Token.Lexeme
import Mathlib.Data.List.Infix

/-!
# The lexical grammar

The lexemes of the language as sets of texts, with no word on how a text is read. A lexeme is a
punctuation or white space character, one of the operators `!`, `=`, `<`, `>` with or without an
equals sign, a comment, a string, a numeral, or a word.

* `Spells kind lexeme`: the text `lexeme` belongs to the class of `kind`.
* `IsLongest kind lexeme text`: of all lexemes that `text` starts with, `lexeme` is the longest.
* `Extends kind lexeme behind`: some first characters of `behind` would make `lexeme` longer. At
  most two characters decide it.

Results:
* `IsLongest.unique`: a text has at most one longest lexeme, up to the kind.
* `IsLongest.cut`: a longest lexeme stays the longest when the text behind it is cut short.
* `not_extends_nil`: nothing extends a lexeme at the end of the text.
-/

namespace LoxTokenizer.Lexeme

open CharClass

/-! ## The classes -/

/-- One or more digits. -/
def Digits (text : List Char) : Prop :=
  text ≠ [] ∧ ∀ c ∈ text, isDigit c = true

/-- An operator, its kind alone and its kind with an equals sign behind it. -/
inductive Operator : Char → TokenKind → TokenKind → Prop where
  | bang : Operator '!' .bang .bangEqual
  | equal : Operator '=' .equal .equalEqual
  | less : Operator '<' .less .lessEqual
  | greater : Operator '>' .greater .greaterEqual

/-- **The lexical grammar**: the lexemes of each kind. -/
inductive Spells : TokenKind → List Char → Prop where
  /-- A character that stands for itself: eleven marks and four kinds of white space. -/
  | punctuation {kind : TokenKind} {c : Char} (h : TokenKind.punctuation? c = some kind) :
      Spells kind [c]
  /-- An operator alone. -/
  | operator {single double : TokenKind} {c : Char} (h : Operator c single double) :
      Spells single [c]
  /-- An operator and an equals sign. -/
  | operatorEqual {single double : TokenKind} {c : Char} (h : Operator c single double) :
      Spells double [c, '=']
  /-- Two slashes and anything but a line feed. -/
  | comment {body : List Char} (h : ∀ c ∈ body, c ≠ '\n') : Spells .comment ('/' :: '/' :: body)
  /-- Anything but a quote, between two quotes. -/
  | string {body : List Char} (h : ∀ c ∈ body, c ≠ '"') :
      Spells .string ('"' :: (body ++ ['"']))
  /-- Digits. -/
  | whole {digits : List Char} (h : Digits digits) : Spells .number digits
  /-- Digits, a point, and digits. -/
  | decimal {whole fraction : List Char} (hw : Digits whole) (hf : Digits fraction) :
      Spells .number (whole ++ '.' :: fraction)
  /-- A letter or underscore, and any letters, digits and underscores behind it. -/
  | word {kind : TokenKind} {c : Char} {rest : List Char} (hk : wordKind (c :: rest) = kind)
      (hc : isWordStart c = true) (h : ∀ d ∈ rest, isWordPart d = true) : Spells kind (c :: rest)

theorem Spells.ne_nil {kind : TokenKind} {lexeme : List Char} (h : Spells kind lexeme) :
    lexeme ≠ [] := by
  cases h with
  | whole h => exact h.1
  | decimal hw _ => simp
  | _ => exact List.cons_ne_nil _ _

/-! ## The longest lexeme -/

/-- `lexeme` is of the class of `kind`, and no longer lexeme of any class starts `text`. -/
structure IsLongest (kind : TokenKind) (lexeme text : List Char) : Prop where
  spells : Spells kind lexeme
  isPrefix : lexeme <+: text
  longest : ∀ {other : TokenKind} {longer : List Char},
    Spells other longer → longer <+: text → longer.length ≤ lexeme.length

variable {kind kind' : TokenKind} {lexeme lexeme' text behind behind' : List Char}

theorem IsLongest.unique (h : IsLongest kind lexeme text) (h' : IsLongest kind' lexeme' text) :
    lexeme = lexeme' := by
  have hle : lexeme.length ≤ lexeme'.length := h'.longest h.spells h.isPrefix
  have hge : lexeme'.length ≤ lexeme.length := h.longest h'.spells h'.isPrefix
  exact (List.prefix_of_prefix_length_le h.isPrefix h'.isPrefix hle).eq_of_length_le hge

/-- **Cutting the text behind.** Fewer characters behind a lexeme leave fewer texts that could be
longer. -/
theorem IsLongest.cut (h : IsLongest kind lexeme (lexeme ++ behind)) (hb : behind' <+: behind) :
    IsLongest kind lexeme (lexeme ++ behind') where
  spells := h.spells
  isPrefix := List.prefix_append _ _
  longest hs hp := h.longest hs (hp.trans ((List.prefix_append_right_inj lexeme).mpr hb))

/-! ## What makes a lexeme longer -/

/-- **Extension**: the characters behind a lexeme would belong to it. A comment goes on to the end
of the line, a numeral with any digit, or with a point and a digit if it has no point yet, an
operator with an equals sign, a slash with a second one, and a word with any letter, digit or
underscore. -/
def Extends (kind : TokenKind) (lexeme behind : List Char) : Prop :=
  match kind with
  | .comment => ∃ c ∈ behind.head?, c ≠ '\n'
  | .number =>
    (∃ c ∈ behind.head?, isDigit c = true) ∨
      ('.' ∉ lexeme ∧ ∃ d rest, behind = '.' :: d :: rest ∧ isDigit d = true)
  | .bang | .equal | .less | .greater => behind.head? = some '='
  | .slash => behind.head? = some '/'
  | kind =>
    (kind = .identifier ∨ kind.isKeyword = true) ∧ ∃ c ∈ behind.head?, isWordPart c = true

theorem extends_word (h : kind = .identifier ∨ kind.isKeyword = true) :
    Extends kind lexeme behind ↔ ∃ c ∈ behind.head?, isWordPart c = true := by
  unfold Extends
  split <;> first
    | exact and_iff_right h
    | exact absurd h (by decide)

/-- Of the characters that stand for themselves only a slash goes on. -/
theorem extends_punctuation_iff {c : Char} (h : TokenKind.punctuation? c = some kind) :
    Extends kind lexeme behind ↔ c = '/' ∧ behind.head? = some '/' := by
  constructor
  · intro hx
    unfold TokenKind.punctuation? at h
    split at h <;> cases h <;> first
      | exact ⟨rfl, hx⟩
      | exact absurd hx.1 (by decide)
  · rintro ⟨rfl, hs⟩
    cases h
    exact hs

theorem not_extends_nil : ¬ Extends kind lexeme [] := by
  unfold Extends
  split <;> simp

/-- A string ends at its second quote, whatever follows. -/
theorem not_extends_string : ¬ Extends .string lexeme behind := by
  intro hx
  have hword : TokenKind.string = .identifier ∨ TokenKind.string.isKeyword = true := hx.1
  exact absurd hword (by decide)

end LoxTokenizer.Lexeme
