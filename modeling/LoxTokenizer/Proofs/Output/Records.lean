import LoxTokenizer.Proofs.Json.Reader
import LoxTokenizer.Proofs.Output.Writes
import LoxTokenizer.Proofs.Scan.EndMarker
import LoxTokenizer.Proofs.Scan.Rebase
import LoxTokenizer.Proofs.Scan.Tiling

/-!
# JSON listings, decoded

A JSON listing is one array of objects, with the same six keys in each. The value of a token has no
tag that would tell a number from a text or a text from a lexeme. The kind tells it: only numerals
have numbers, only strings and comments have texts, and every other token has its lexeme. A number
is decoded by rounding its numeral, and `null` stands for infinity.

The span of a token is not written as a whole. Its line is the one after the lexeme, and the lexeme
has the rest: the lines that it goes over, and where it stops.

* `Record`: what a JSON listing says of a token.
* `record?`: the decoder of an object.
* `literal?_toJson`: the kind of a token and its untagged value give the value.
* **`record?_toJson`**: an object is decoded.
* **`Record.restore_of`**: a token is recovered from what the listing says of it.
* `exists_isAt_of_scan`: every token of a scan has a place, the marker of the end as well.
* **`json_listing_decodes`**: the law for the tokens of a source.
-/

namespace LoxTokenizer.Listing

open Json (Readable)

/-! ## What is said of a token -/

/-- What a JSON listing says of a token. -/
structure Record where
  kind : TokenKind
  lexeme : String
  /-- The value, or none for an infinite number. -/
  literal : Option Literal
  line : Nat
  column : Nat
  offset : Nat
  deriving DecidableEq, Repr

/-- A value, unless it is an infinite number. -/
def finite? : Literal → Option Literal
  | .number value => if value.isInfinite then none else some (.number value)
  | literal => some literal

/-- What is said of a token. -/
def Record.of (t : Token) : Record :=
  ⟨t.kind, t.lexeme, finite? t.literal, t.line, t.column, t.offset⟩

/-- The token of which something is said, with the place where it starts counted back from the
line behind it. -/
def Record.restore (r : Record) : Token :=
  let start : Position := ⟨r.line - r.lexeme.toList.count '\n', r.column, r.offset⟩
  ⟨r.kind, r.lexeme, r.literal.getD (.number .infinity), ⟨start, start.after r.lexeme.toList⟩⟩

/-! ## The decoder -/

/-- The keys of an object. -/
def keys : List String :=
  ["kind", "lexeme", "literal", "line", "column", "offset"]

/-- A natural number. -/
def natural? : Json → Option Nat
  | .number numeral =>
    (Json.numeral? numeral.toList).bind fun n => if n.exponent = 0 then some n.digits else none
  | _ => none

/-- The value of a token that is a number: none for an infinite one. -/
def numberLiteral? : Json → Option (Option Literal)
  | .null => some none
  | .number numeral => (Json.numeral? numeral.toList).map fun n => some (.number n.toBinary64)
  | _ => none

/-- The value of a token of any other kind. -/
def textLiteral? (kind : TokenKind) : Json → Option (Option Literal)
  | .string s =>
    if kind = .string ∨ kind = .comment then some (some (.text s)) else some (some (.lexeme s))
  | _ => none

/-- The value of a token of a given kind. -/
def literal? (kind : TokenKind) (value : Json) : Option (Option Literal) :=
  if kind = .number then numberLiteral? value else textLiteral? kind value

/-- Decodes what stands under the keys. -/
def fields? : List Json → Option Record
  | [.string name, .string lexeme, literal, line, column, offset] => do
    let kind ← TokenKind.ofName? name
    return ⟨kind, lexeme, ← literal? kind literal, ← natural? line, ← natural? column,
      ← natural? offset⟩
  | _ => none

/-- **The decoder of an object**, which has the six keys in their order and no others. -/
def record? : Json → Option Record
  | .object members =>
    if members.map Prod.fst = keys then fields? (members.map Prod.snd) else none
  | _ => none

/-! ## Values -/

variable {t : Token} {place : Position} {tokens : List Token} {settings : Settings}

theorem natural?_natural (n : Nat) : natural? (.natural n) = some n := by
  show (Json.numeral? (toString n).toList).bind _ = _
  rw [Json.numeral?_natural]
  rfl

/-- **A number is decoded**, or is infinite and left out. -/
theorem numberLiteral?_toJson (value : Binary64) :
    numberLiteral? (Literal.number value).toJson = some (finite? (.number value)) := by
  simp only [Literal.toJson, finite?]
  cases hx : value.isInfinite with
  | true => rfl
  | false =>
    obtain ⟨n, hread, hvalue⟩ := Json.numeral?_write hx
    show (Json.numeral? (NumberStyle.json.write value).toList).map _ =
      some (some (Literal.number value))
    rw [hread, Option.map_some, hvalue]

/-- **The kind and the untagged value** of a lexeme give its value. -/
theorem literal?_toJson {kind : TokenKind} {lexeme : List Char} {literal : Literal}
    (h : Literal.ofLexeme? kind lexeme = some literal) :
    literal? kind literal.toJson = some (finite? literal) := by
  unfold Literal.ofLexeme? at h
  split at h
  · obtain ⟨n, -, rfl⟩ := Option.map_eq_some_iff.mp h
    rw [literal?, if_pos rfl, numberLiteral?_toJson]
  · cases h
    rfl
  · cases h
    rfl
  · next hnumber hstring hcomment =>
    cases h
    have hnumber' : kind ≠ .number := hnumber
    have htext : ¬ (kind = .string ∨ kind = .comment) := not_or.mpr ⟨hstring, hcomment⟩
    simp [literal?, textLiteral?, Literal.toJson, finite?, hnumber', htext]

/-- The value is missing only for infinity. -/
theorem finite?_eq_none_iff {literal : Literal} :
    finite? literal = none ↔ literal = .number .infinity := by
  cases literal with
  | number value =>
    rw [finite?, Literal.number.injEq, ← Binary64.isInfinite_iff]
    split <;> simp [*]
  | _ => simp [finite?]

/-- What is missing is infinity. -/
theorem getD_finite? (literal : Literal) :
    (finite? literal).getD (.number .infinity) = literal := by
  cases hfinite : finite? literal with
  | none => exact (finite?_eq_none_iff.mp hfinite).symm
  | some value =>
    cases literal with
    | number x =>
      rw [finite?] at hfinite
      split at hfinite <;> cases hfinite
      rfl
    | _ =>
      cases hfinite
      rfl

/-! ## Objects -/

/-- **An object is decoded.** -/
theorem record?_toJson (h : t.IsAt place) : record? t.toJson = some (.of t) := by
  have hfields : record? t.toJson = fields?
      [.string t.kind.name, .string t.lexeme, t.literal.toJson, .natural t.line,
        .natural t.column, .natural t.offset] := rfl
  rw [hfields, fields?, TokenKind.ofName?_name]
  simp only [literal?_toJson h.literal, natural?_natural, Option.bind_eq_bind, Option.bind_some]
  rfl

theorem readable_toJson (t : Token) : Readable t.toJson := by
  have hnatural : ∀ n, Readable (.natural n) := fun n => .number (Json.numeral?_natural n)
  have hliteral : Readable t.literal.toJson := by
    cases t.literal with
    | number value =>
      rw [Literal.toJson]
      split
      · exact .null
      · next hx =>
        obtain ⟨n, hread, -⟩ := Json.numeral?_write (Bool.eq_false_of_not_eq_true hx)
        exact .number hread
    | text body => exact .string body
    | lexeme raw => exact .string raw
  refine .object ?_
  simp [Readable.string, hnatural, hliteral]

/-- **A token is recovered** from what is said of it. -/
theorem Record.restore_of (h : t.IsAt place) : (Record.of t).restore = t := by
  have hline : t.line - t.lexeme.toList.count '\n' = place.line := by
    unfold Token.line
    rw [h.span, Position.line_after, Nat.add_sub_cancel]
  have hcolumn : t.column = place.column := by
    unfold Token.column
    rw [h.span]
  have hoffset : t.offset = place.offset := by
    unfold Token.offset
    rw [h.span]
  have hstart : (⟨t.line - t.lexeme.toList.count '\n', t.column, t.offset⟩ : Position) = place := by
    rw [hline, hcolumn, hoffset]
  unfold Record.restore Record.of
  dsimp only
  rw [hstart, getD_finite?, ← h.span]

/-! ## The listing of a source -/

theorem mapM_record? (h : ∀ t ∈ tokens, ∃ place, t.IsAt place) :
    (tokens.map Token.toJson).mapM record? = some (tokens.map Record.of) := by
  induction tokens with
  | nil => rfl
  | cons t tokens ih =>
    obtain ⟨place, ht⟩ := h t List.mem_cons_self
    have hrest := ih fun t hmem => h t (List.mem_cons_of_mem _ hmem)
    simp [record?_toJson ht, hrest]

theorem map_restore (h : ∀ t ∈ tokens, ∃ place, t.IsAt place) :
    (tokens.map Record.of).map Record.restore = tokens := by
  rw [List.map_map]
  refine (List.map_congr_left fun t ht => ?_).trans (List.map_id tokens)
  obtain ⟨place, hplace⟩ := h t ht
  exact Record.restore_of hplace

/-- Every token of a scan has a place, and the marker of the end has one too. -/
theorem exists_isAt_of_scan {source : String} (h : settings.scan source = .ok tokens) :
    ∀ t ∈ tokens, ∃ place, t.IsAt place := by
  have hfound : ∀ {found}, scan source = .ok found → ∀ t ∈ found, ∃ place, t.IsAt place := by
    intro found hscan t ht
    obtain ⟨i, hi, rfl⟩ := List.getElem_of_mem ht
    exact ⟨_, Token.isAt_getElem (scan_eq_ok_iff.mp hscan).2.2 hi⟩
  unfold Settings.scan at h
  split at h
  · obtain ⟨found, hscan, rfl⟩ := scanWithEof_eq_ok_iff.mp h
    intro t ht
    rcases List.mem_append.mp ht with ht | ht
    · exact hfound hscan t ht
    · obtain rfl := List.mem_singleton.mp ht
      exact ⟨_, Token.isAt_eof _⟩
  · exact hfound h

/-- The scan of a text that is told by its characters. -/
theorem scan_ofList (text : List Char) : scan (String.ofList text) =
    (checkSourceLength (Text.byteLength text)).bind fun _ =>
      (ScanRun.startingAt .start text).outcome.map fun _ =>
        (ScanRun.startingAt .start text).tokens := by
  unfold scan ScanRun.of
  rw [String.toList_ofList]
  cases checkSourceLength (Text.byteLength text) <;> rfl

/-- An array is written between brackets. -/
theorem render_array (items : List Json) :
    ∃ body, (Json.array items).render = "[" ++ body ++ "]" := by
  unfold Json.render
  cases items with
  | nil => exact ⟨"", rfl⟩
  | cons item items =>
    refine ⟨String.ofList (Json.newLine 1 ++ item.pretty 1 ++ Json.prettyItems 1 items ++
      Json.newLine 0), ?_⟩
    apply String.toList_inj.mp
    simp [Json.pretty]

/-- **A JSON listing gives the tokens back.** What is written is one array and one line feed behind
it. The array has an object for each token that is shown, in their order, which is decoded to the
kind, the lexeme, the value, the line, the column and the offset of that token. The value is missing
exactly where it is infinite, so that the tokens are recovered as they were. -/
theorem json_listing_decodes {source : String} (hformat : settings.format = .json)
    (h : settings.scan source = .ok tokens) :
    ∃ (output : Sink) (body : String) (items : List Json),
      Sink.unlimited.writeAll (settings.listing tokens) = .ok output ∧
      output.bytes = utf8 ("[" ++ body ++ "]" ++ "\n") ∧
      Json.read? ("[" ++ body ++ "]") = some (.array items) ∧
      items.mapM record? = some ((shown settings.trivia tokens).map Record.of) ∧
      (∀ t ∈ shown settings.trivia tokens,
        (Record.of t).literal = none ↔ t.literal = .number .infinity) ∧
      ((shown settings.trivia tokens).map Record.of).map Record.restore =
        shown settings.trivia tokens := by
  have hplaced : ∀ t ∈ shown settings.trivia tokens, ∃ place, t.IsAt place := fun t ht =>
    exists_isAt_of_scan h t (List.mem_of_mem_filter ht)
  obtain ⟨output, hbytes, hwritten⟩ := Sink.writeAll_unlimited (settings.listing tokens)
  obtain ⟨body, hbody⟩ := render_array ((shown settings.trivia tokens).map Token.toJson)
  have hreadable : Readable (.array ((shown settings.trivia tokens).map Token.toJson)) :=
    .array (List.forall_mem_map.mpr fun t _ => readable_toJson t)
  refine ⟨output, body, _, hwritten, ?_, ?_, mapM_record? hplaced,
    fun t _ => finite?_eq_none_iff, map_restore hplaced⟩
  · rw [hbytes, Settings.listing, hformat, ← hbody]
    simp [pieces]
  · rw [← hbody]
    exact Json.read?_render hreadable

/-- A string with a control and a line feed, a number that is too large, and a comment with a quote
and a backslash. -/
theorem json_listing_decodes_infinite :
    ∃ source tokens output body items,
      source = String.ofList
          (['"', '\x01', '\n', '"'] ++ List.replicate 310 '9' ++ ['/', '/', '"', '\\']) ∧
        (⟨.json, true, true, "> ", false⟩ : Settings).scan source = .ok tokens ∧
        Sink.unlimited.writeAll ((⟨.json, true, true, "> ", false⟩ : Settings).listing tokens) =
          .ok output ∧
        output.bytes = utf8 ("[" ++ body ++ "]" ++ "\n") ∧
        Json.read? ("[" ++ body ++ "]") = some (.array items) ∧
        items.mapM record? = some (tokens.map Record.of) ∧
        (tokens.map fun t => (Record.of t).literal) =
          [some (.text "\x01\n"), none, some (.text "\"\\"), some (.lexeme "")] ∧
        (tokens.map Record.of).map Record.restore = tokens := by
  obtain ⟨source, hsource⟩ : ∃ source, source = String.ofList
      (['"', '\x01', '\n', '"'] ++ List.replicate 310 '9' ++ ['/', '/', '"', '\\']) := ⟨_, rfl⟩
  have hs : (scan source).map (List.map fun t => (Record.of t).literal) =
      .ok [some (.text "\x01\n"), none, some (.text "\"\\")] := by
    rw [hsource, scan_ofList]
    decide +kernel
  obtain ⟨found, hfound, hliterals⟩ := exists_of_map_eq_ok hs
  have hscan : (⟨.json, true, true, "> ", false⟩ : Settings).scan source =
      .ok (found ++ [Token.eof (Position.start.after source.toList)]) :=
    scanWithEof_eq_ok_iff.mpr ⟨found, hfound, rfl⟩
  obtain ⟨output, body, items, hwritten, hbytes, hread, hrecords, -, hrestored⟩ :=
    json_listing_decodes rfl hscan
  simp only [shown, Bool.true_or, List.filter_true] at hrecords hrestored
  refine ⟨source, _, output, body, items, hsource, hscan, hwritten, hbytes, hread, hrecords, ?_,
    hrestored⟩
  rw [List.map_append, hliterals]
  rfl

end LoxTokenizer.Listing
