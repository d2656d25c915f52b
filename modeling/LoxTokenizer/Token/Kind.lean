/-!
# Kinds of token

The closed list of kinds, their names, and the two tables that give a kind by spelling: the
reserved words and the characters that are tokens on their own.

* **`TokenKind.ofName?_name`**: a kind is recovered from its name.
* **`TokenKind.keyword?_eq_some_iff`**: a reserved word is the name of its kind in lower case.
* **`TokenKind.isKeyword_iff`**: which kinds are those of reserved words, by what the others are.
* `TokenKind.punctuation?_isSome_iff`: which characters are tokens on their own.
  `TokenKind.punctuation?_inj`: each of them has a kind of its own.
-/

namespace LoxTokenizer

/-- What a token is. -/
inductive TokenKind where
  | leftParen | rightParen | leftBrace | rightBrace
  | comma | dot | minus | plus | semicolon | slash | star
  | bang | bangEqual | equal | equalEqual
  | greater | greaterEqual | less | lessEqual
  | identifier | string | number
  | andWord | classWord | elseWord | falseWord | funWord | forWord | ifWord | nilWord
  | orWord | printWord | returnWord | superWord | thisWord | trueWord | varWord | whileWord
  | space | tab | newline | carriageReturn | comment
  | eof
  deriving DecidableEq, Repr

namespace TokenKind

/-- Every kind, in the order of the type. -/
def all : List TokenKind :=
  [.leftParen, .rightParen, .leftBrace, .rightBrace,
   .comma, .dot, .minus, .plus, .semicolon, .slash, .star,
   .bang, .bangEqual, .equal, .equalEqual,
   .greater, .greaterEqual, .less, .lessEqual,
   .identifier, .string, .number,
   .andWord, .classWord, .elseWord, .falseWord, .funWord, .forWord, .ifWord, .nilWord,
   .orWord, .printWord, .returnWord, .superWord, .thisWord, .trueWord, .varWord, .whileWord,
   .space, .tab, .newline, .carriageReturn, .comment,
   .eof]

/-- The name under which a kind is printed. -/
def name : TokenKind → String
  | .leftParen => "LEFT_PAREN"
  | .rightParen => "RIGHT_PAREN"
  | .leftBrace => "LEFT_BRACE"
  | .rightBrace => "RIGHT_BRACE"
  | .comma => "COMMA"
  | .dot => "DOT"
  | .minus => "MINUS"
  | .plus => "PLUS"
  | .semicolon => "SEMICOLON"
  | .slash => "SLASH"
  | .star => "STAR"
  | .bang => "BANG"
  | .bangEqual => "BANG_EQUAL"
  | .equal => "EQUAL"
  | .equalEqual => "EQUAL_EQUAL"
  | .greater => "GREATER"
  | .greaterEqual => "GREATER_EQUAL"
  | .less => "LESS"
  | .lessEqual => "LESS_EQUAL"
  | .identifier => "IDENTIFIER"
  | .string => "STRING"
  | .number => "NUMBER"
  | .andWord => "AND"
  | .classWord => "CLASS"
  | .elseWord => "ELSE"
  | .falseWord => "FALSE"
  | .funWord => "FUN"
  | .forWord => "FOR"
  | .ifWord => "IF"
  | .nilWord => "NIL"
  | .orWord => "OR"
  | .printWord => "PRINT"
  | .returnWord => "RETURN"
  | .superWord => "SUPER"
  | .thisWord => "THIS"
  | .trueWord => "TRUE"
  | .varWord => "VAR"
  | .whileWord => "WHILE"
  | .space => "SPACE"
  | .tab => "TAB"
  | .newline => "NEWLINE"
  | .carriageReturn => "CARRIAGE_RETURN"
  | .comment => "COMMENT"
  | .eof => "EOF"

/-- The kind of that name. -/
def ofName? (name : String) : Option TokenKind :=
  all.find? fun kind => kind.name == name

theorem mem_all (kind : TokenKind) : kind ∈ all := by
  cases kind <;> decide

theorem ofName?_name (kind : TokenKind) : ofName? kind.name = some kind := by
  cases kind <;> decide

/-- The reserved words and their kinds. -/
def keywords : List (String × TokenKind) :=
  [("and", .andWord), ("class", .classWord), ("else", .elseWord), ("false", .falseWord),
   ("fun", .funWord), ("for", .forWord), ("if", .ifWord), ("nil", .nilWord),
   ("or", .orWord), ("print", .printWord), ("return", .returnWord), ("super", .superWord),
   ("this", .thisWord), ("true", .trueWord), ("var", .varWord), ("while", .whileWord)]

/-- The kind of a reserved word. Upper and lower case differ. -/
def keyword? (word : String) : Option TokenKind :=
  keywords.lookup word

/-- The kind of a character that is always a token on its own. A slash is listed, although two
of them start a comment. -/
def punctuation? : Char → Option TokenKind
  | '(' => some .leftParen
  | ')' => some .rightParen
  | '{' => some .leftBrace
  | '}' => some .rightBrace
  | ',' => some .comma
  | '.' => some .dot
  | '-' => some .minus
  | '+' => some .plus
  | ';' => some .semicolon
  | '/' => some .slash
  | '*' => some .star
  | ' ' => some .space
  | '\t' => some .tab
  | '\n' => some .newline
  | '\r' => some .carriageReturn
  | _ => none

/-- The kinds of the reserved words. -/
def isKeyword (kind : TokenKind) : Bool :=
  keywords.any fun entry => entry.2 == kind

/-- White space and comments, which carry no meaning for a grammar. -/
def isTrivia : TokenKind → Bool
  | .space | .tab | .newline | .carriageReturn | .comment => true
  | _ => false

/-! ## What the tables hold -/

variable {word : String} {kind : TokenKind} {c d : Char}

theorem mem_keywords_of_keyword? (h : keyword? word = some kind) : (word, kind) ∈ keywords := by
  obtain ⟨before, behind, heq, -⟩ := List.lookup_eq_some_iff.1 h
  rw [heq]
  simp

/-- **A reserved word is the name of its kind** in lower case, and no other word is one. -/
theorem keyword?_eq_some_iff : keyword? word = some kind ↔
    kind.isKeyword = true ∧ word.toList = kind.name.toList.map Char.toLower := by
  constructor
  · have rows : ∀ row ∈ keywords,
        row.2.isKeyword = true ∧ row.1.toList = row.2.name.toList.map Char.toLower := by
      decide
    exact fun h => rows _ (mem_keywords_of_keyword? h)
  · rintro ⟨hkind, hword⟩
    have rows : ∀ kind ∈ all, kind.isKeyword = true →
        keyword? (String.ofList (kind.name.toList.map Char.toLower)) = some kind := by
      decide
    rw [← String.ofList_toList (s := word), hword]
    exact rows kind (mem_all kind) hkind

example : ["class", "Class", "classify"].map keyword? = [some .classWord, none, none] := by decide

/-- The characters that are always a token on their own. -/
def symbols : List Char :=
  ['(', ')', '{', '}', ',', '.', '-', '+', ';', '/', '*', ' ', '\t', '\n', '\r']

theorem punctuation?_isSome_iff : (punctuation? c).isSome = true ↔ c ∈ symbols := by
  constructor
  · unfold punctuation?
    split
    all_goals
      intro h
      first
        | decide
        | cases h
  · have rows : symbols.all (fun c => (punctuation? c).isSome) = true := by decide
    exact List.all_eq_true.1 rows c

example : ['(', '/', '!'].map punctuation? = [some .leftParen, some .slash, none] := by decide

theorem mem_symbols_of_punctuation? (h : punctuation? c = some kind) : c ∈ symbols :=
  punctuation?_isSome_iff.1 (Option.isSome_of_eq_some h)

/-- **No two characters** have the same kind of punctuation. -/
theorem punctuation?_inj (hc : punctuation? c = some kind) (hd : punctuation? d = some kind) :
    c = d := by
  unfold punctuation? at hc hd
  split at hc <;> cases hc <;> split at hd <;> first
    | rfl
    | cases hd

/-- **Which kinds are those of reserved words**: all but the kinds of punctuation, of the operators
that an equals sign may complete, of values, of comments and of the end. -/
theorem isKeyword_iff : kind.isKeyword = true ↔
    (∀ c, punctuation? c ≠ some kind) ∧
      kind ∉ [bang, bangEqual, equal, equalEqual, greater, greaterEqual, less, lessEqual,
        identifier, string, number, comment, eof] := by
  have rows : ∀ kind ∈ all, kind.isKeyword = true ↔
      symbols.all (fun c => punctuation? c != some kind) = true ∧
        kind ∉ [bang, bangEqual, equal, equalEqual, greater, greaterEqual, less, lessEqual,
          identifier, string, number, comment, eof] := by
    decide
  have hsymbols : (∀ c, punctuation? c ≠ some kind) ↔
      symbols.all (fun c => punctuation? c != some kind) = true := by
    rw [List.all_eq_true]
    exact ⟨fun h c _ => bne_iff_ne.2 (h c),
      fun h c hc => bne_iff_ne.1 (h c (mem_symbols_of_punctuation? hc)) hc⟩
  rw [hsymbols]
  exact rows kind (mem_all kind)

end TokenKind

end LoxTokenizer
