import LoxTokenizer.Proofs.Scan.Run

/-!
# A scan is a maximal munch

The scan branches on one character and looks at one or two more. The grammar of `Spells` and the
rule of the longest lexeme say the same with no word on branches: they settle which sources scan,
into which lexemes, of which kinds, and with which values.

* **`scan_maximal_munch`**: a source scans exactly when longest lexemes can be taken off it until
  nothing is left, and its tokens are those lexemes.
-/

namespace LoxTokenizer

open Lexeme Token

variable {source : String} {tokens : List Token}

theorem munch_of_scan (h : scan source = .ok tokens) :
    Munch source.toList (tokens.map piece) [] :=
  (scan_eq_ok_iff.mp h).2.1

theorem exists_scan_of_munch {pieces : List (TokenKind × List Char)}
    (hle : Text.byteLength source.toList ≤ maxSourceLength) (h : Munch source.toList pieces []) :
    ∃ tokens, scan source = .ok tokens ∧ tokens.map piece = pieces := by
  obtain ⟨tokens, rfl, hp⟩ := exists_placed h .start
  exact ⟨tokens, scan_eq_ok_iff.mpr ⟨hle, h, hp⟩, rfl⟩

/-- The kind of a token is the one class that its lexeme is in, and its value is what the lexeme
stands for. -/
theorem Token.spells_of_munch {text rest : List Char} {place : Position}
    (hm : Munch text (tokens.map piece) rest) (hp : Placed place tokens) :
    ∀ t ∈ tokens, Spells t.kind t.lexeme.toList ∧ Denotes t.kind t.lexeme.toList t.literal := by
  induction tokens generalizing text place with
  | nil => simp
  | cons t tokens ih =>
    obtain ⟨tail, -, hl, ht⟩ := Munch.cons_iff.mp hm
    obtain ⟨literal, hliteral, hd⟩ := exists_denotes hl.spells
    obtain rfl : literal = t.literal := Option.some.inj (hliteral.symm.trans hp.1.literal)
    exact List.forall_mem_cons.mpr ⟨⟨hl.spells, hd⟩, ih ht hp.2⟩

/-- **A scan is a maximal munch.** A source within the size limit scans exactly when taking its
longest lexeme off the front again and again leaves nothing. There is one way to do so, and the
tokens are what it takes off: the lexemes in their order, each with the only kind of which it is a
lexeme and with the value that it stands for. -/
theorem scan_maximal_munch (source : String)
    (hle : Text.byteLength source.toList ≤ maxSourceLength) :
    ((∃ tokens, scan source = .ok tokens) ↔ ∃ pieces, Munch source.toList pieces []) ∧
      ∀ tokens, scan source = .ok tokens →
        (∀ pieces, Munch source.toList pieces [] ↔
          pieces = tokens.map fun t => (t.kind, t.lexeme.toList)) ∧
        ∀ t ∈ tokens, (∀ kind, Spells kind t.lexeme.toList ↔ kind = t.kind) ∧
          Denotes t.kind t.lexeme.toList t.literal := by
  refine ⟨⟨?_, ?_⟩, fun tokens h => ⟨fun pieces => ⟨?_, ?_⟩, fun t ht => ?_⟩⟩
  · rintro ⟨tokens, h⟩
    exact ⟨_, munch_of_scan h⟩
  · rintro ⟨pieces, h⟩
    obtain ⟨tokens, hs, -⟩ := exists_scan_of_munch hle h
    exact ⟨tokens, hs⟩
  · exact fun hm => hm.unique (munch_of_scan h)
  · rintro rfl
    exact munch_of_scan h
  · obtain ⟨hs, hd⟩ := spells_of_munch (munch_of_scan h) (scan_eq_ok_iff.mp h).2.2 t ht
    refine ⟨fun kind => ⟨fun hk => hk.unique hs, ?_⟩, hd⟩
    rintro rfl
    exact hs

/-- A comparison, a numeral with a point after it, and a comment. -/
theorem scan_maximal_munch_comparison :
    Text.byteLength "x>=1.5.//é".toList ≤ maxSourceLength ∧
      Munch "x>=1.5.//é".toList
        [(.identifier, ['x']), (.greaterEqual, ['>', '=']), (.number, ['1', '.', '5']),
          (.dot, ['.']), (.comment, ['/', '/', 'é'])] [] := by
  have hle : Text.byteLength "x>=1.5.//é".toList ≤ maxSourceLength := by decide
  have hs : (scan "x>=1.5.//é").map (List.map piece) =
      .ok [(.identifier, ['x']), (.greaterEqual, ['>', '=']), (.number, ['1', '.', '5']),
        (.dot, ['.']), (.comment, ['/', '/', 'é'])] := by
    decide +kernel
  obtain ⟨tokens, h, hp⟩ := exists_of_map_eq_ok hs
  exact ⟨hle, (((scan_maximal_munch _ hle).2 tokens h).1 _).mpr hp.symm⟩

end LoxTokenizer
