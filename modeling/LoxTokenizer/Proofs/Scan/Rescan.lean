import LoxTokenizer.Proofs.Scan.Rebase
import LoxTokenizer.Proofs.Scan.Tiling

/-!
# A run of tokens scans on its own

Nothing is carried over from one token to the next but the place. The text of some neighbouring
tokens, scanned by itself, gives these tokens again: what came before them decides only where they
are, and with the text behind them gone every lexeme ends where it ended.

* `Token.munch_extract`: the lexemes of a run of tokens are a munch of their own text.
* **`scan_extract`**: a run of tokens is the scan of its text, with the places counted from its
  first character.
-/

namespace LoxTokenizer

open Lexeme

namespace Token

variable {source : String} {tokens : List Token} {place : Position} {i j : Nat}

/-- The tokens before, within and behind a run of them. -/
theorem split_extract (tokens : List Token) (hij : i ≤ j) :
    tokens = tokens.take i ++ (tokens.extract i j ++ tokens.drop j) := by
  have hdrop : tokens.drop j = (tokens.drop i).drop (j - i) := by
    rw [List.drop_drop, Nat.add_sub_cancel' hij]
  rw [List.extract_eq_take_drop, hdrop, List.take_append_drop, List.take_append_drop]

/-- The text before a run of tokens, and the text of the run. -/
theorem take_append_extract (tokens : List Token) (hij : i ≤ j) :
    tokens.take j = tokens.take i ++ tokens.extract i j := by
  conv_lhs => rw [← Nat.add_sub_cancel' hij, List.take_add]

theorem munch_extract {text : List Char} (hm : Munch text (tokens.map piece) []) (hij : i ≤ j) :
    Munch (spelling ((tokens.extract i j).map piece)) ((tokens.extract i j).map piece) [] := by
  rw [split_extract tokens hij, List.map_append, List.map_append] at hm
  obtain ⟨middle, -, hrun⟩ := hm.split
  obtain ⟨behind, hrun, -⟩ := hrun.split
  exact hrun.cut_all

theorem placed_extract (hp : Placed place tokens) (hij : i ≤ j) :
    Placed (place.after (spelling ((tokens.take i).map piece))) (tokens.extract i j) := by
  rw [split_extract tokens hij, placed_append, placed_append] at hp
  exact hp.2.1

theorem endOffset_extract (hp : Placed .start tokens) (hij : i < j) (hj : j ≤ tokens.length) :
    tokens[j - 1].endOffset = Text.byteLength (spelling ((tokens.take i).map piece) ++
      spelling ((tokens.extract i j).map piece)) := by
  have hlast : j - 1 < tokens.length := by omega
  rw [endOffset_getElem hp hlast, Nat.sub_add_cancel (by omega),
    take_append_extract tokens (Nat.le_of_lt hij), List.map_append, spelling_append]

/-- Placed tokens with the pieces of a munch are, from its end on, what the munch makes at the
start. -/
theorem placed_relativeTo {text rest before : List Char}
    (hm : Munch text (tokens.map piece) rest) (hp : Placed (Position.start.after before) tokens) :
    Placed .start (tokens.map (relativeTo (Position.start.after before))) := by
  obtain ⟨fresh, hpieces, hfresh⟩ := exists_placed hm .start
  have hrebased : fresh.map (rebase before) = tokens := by
    have hplaced := placed_rebase (a := before) hfresh (Nat.le_refl 1)
    rw [Position.rebase_start] at hplaced
    exact hplaced.eq hp (by rw [map_piece_rebase, hpieces])
  have hback : (fresh.map (rebase before)).map (relativeTo (Position.start.after before)) =
      fresh := by
    rw [List.map_map]
    exact List.map_id'' (relativeTo_rebase before) fresh
  rw [← hrebased, hback]
  exact hfresh

end Token

open Token

variable {source : String} {tokens : List Token} {i j : Nat}

/-- **No state is carried from token to token.** The text of a run of neighbouring tokens scans on
its own, and gives the tokens of the run, with their places counted from the first of them: less
its bytes, less the line feeds before it, and on its line less its columns. The text is the
lexemes joined, so that of a single token is its lexeme. -/
theorem scan_extract (h : scan source = .ok tokens) (hij : i < j) (hj : j ≤ tokens.length) :
    ∃ before text, Text.slice? source.toList 0 tokens[i].offset = some before ∧
      Text.slice? source.toList tokens[i].offset tokens[j - 1].endOffset = some text ∧
      tokens[i].span.start.line = 1 + before.count '\n' ∧
      String.ofList text = String.join ((tokens.extract i j).map Token.lexeme) ∧
      scan (String.ofList text) =
        .ok ((tokens.extract i j).map (relativeTo tokens[i].span.start)) := by
  obtain ⟨hle, hm, hp⟩ := scan_eq_ok_iff.mp h
  have hi : i < tokens.length := by omega
  set before := spelling ((tokens.take i).map piece)
  set text := spelling ((tokens.extract i j).map piece) with htext
  set behind := spelling ((tokens.drop j).map piece)
  have hsource : source.toList = before ++ text ++ behind :=
    toList_eq_of_split h (split_extract tokens (Nat.le_of_lt hij))
  have hstart : tokens[i].span.start = Position.start.after before := by
    rw [(isAt_getElem hp hi).span]
  refine ⟨before, text, ?_, ?_, ?_, ?_, ?_⟩
  · have hslice := Text.slice?_append [] before (text ++ behind)
    rw [List.nil_append, ← List.append_assoc, ← hsource] at hslice
    rw [offset_getElem hp hi]
    exact hslice
  · rw [hsource, offset_getElem hp hi, endOffset_extract hp hij hj]
    exact Text.slice?_append before text behind
  · rw [hstart]
    exact Position.line_after .start before
  · rw [htext, spelling_map_piece, String.ofList_toList]
  · have hrun := munch_extract hm (Nat.le_of_lt hij)
    have hplaced := placed_extract hp (Nat.le_of_lt hij)
    rw [hstart]
    refine scan_eq_ok_iff.mpr ⟨?_, ?_, placed_relativeTo hrun hplaced⟩
    · rw [hsource] at hle
      simp only [Text.byteLength_append] at hle
      rw [String.toList_ofList]
      omega
    · rw [String.toList_ofList, List.map_map]
      exact hrun

/-- Out of the middle of a line, over a line feed in a string, up to a numeral before a point. -/
theorem scan_extract_string : ∃ tokens, scan "a \"x\ny\" 12." = .ok tokens ∧
    ∃ hlen : 5 ≤ tokens.length, scan "\"x\ny\" 12" =
      .ok ((tokens.extract 2 5).map (relativeTo (tokens.get ⟨2, by omega⟩).span.start)) := by
  have hs : (scan "a \"x\ny\" 12.").map (fun tokens =>
      (tokens.length, String.join ((tokens.extract 2 5).map Token.lexeme))) =
      .ok (6, "\"x\ny\" 12") := by
    decide +kernel
  obtain ⟨tokens, h, hpair⟩ := exists_of_map_eq_ok hs
  obtain ⟨hsix, hjoin⟩ := Prod.mk.inj hpair
  have hlen : 5 ≤ tokens.length := by omega
  obtain ⟨before, text, -, -, -, htext, hscan⟩ := scan_extract h (show 2 < 5 by decide) hlen
  rw [htext, hjoin] at hscan
  exact ⟨tokens, h, hlen, hscan⟩

end LoxTokenizer
