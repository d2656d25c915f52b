import LoxTokenizer.Proofs.Scan.FirstError
import LoxTokenizer.Proofs.Scan.Places
import LoxTokenizer.Scan.Log
import Mathlib.Data.List.Forall2

/-!
# The records of a scan

What a scan notes is told by its answer: the size of the source, the tokens up to the end or up to
the error, and a summary only at the end. The record of a token names the place of its first
character, which is the place that counting the source gives; the token's own line may be a later
one.

* `scanLog_of_scan`, `scanLog_of_run_error`: the records by the answer of the scan.
* `exists_run_of_scan_error`: the tokens before an error are those of the text before it, scanned
  alone.
* `Token.RecordedIn`: the record of a token, told by the source.
* **`Token.recordedIn_of_placed`**: placed tokens are recorded where the source says.
-/

namespace LoxTokenizer

open Lexeme Token

variable {source : String} {tokens : List Token} {e : ScanError}

/-- The record of a source that is going to be scanned. -/
def openingRecord (bytes : Nat) : LogRecord :=
  ⟨.debug, "scanning " ++ toString bytes ++ " bytes"⟩

/-! ## The records by the answer -/

theorem scanLog_of_le (h : Text.byteLength source.toList ≤ maxSourceLength) :
    scanLog source = (ScanRun.of source).logRecords (Text.byteLength source.toList) := by
  unfold scanLog
  dsimp only
  rw [checkSourceLength_of_le h]

theorem scanLog_of_large (h : maxSourceLength < Text.byteLength source.toList) :
    scanLog source = [] := by
  unfold scanLog
  dsimp only
  rw [checkSourceLength_of_lt h]

theorem scanLog_of_scan (h : scan source = .ok tokens) :
    scanLog source = openingRecord (Text.byteLength source.toList) :: tokens.map logRecord ++
      [ScanRun.summary tokens (Position.start.after source.toList)] := by
  obtain ⟨hle, hm, hp⟩ := scan_eq_ok_iff.mp h
  have hrun := ScanRun.startingAt_eq_ok_iff.mpr ⟨hm, hp, rfl⟩
  rw [scanLog_of_le hle, ScanRun.of, hrun]
  rfl

theorem scanLog_of_run_error (hle : Text.byteLength source.toList ≤ maxSourceLength)
    (h : ScanRun.of source = ⟨tokens, .error e⟩) :
    scanLog source = openingRecord (Text.byteLength source.toList) :: tokens.map logRecord := by
  rw [scanLog_of_le hle, h]
  exact List.append_nil _

/-- **The tokens before an error** are those of the text before it, scanned alone. -/
theorem exists_run_of_scan_error (hle : Text.byteLength source.toList ≤ maxSourceLength)
    (h : scan source = .error e) : ∃ before rest tokens, source.toList = before ++ rest ∧
      e.position.offset = Text.byteLength before ∧ ScanRun.of source = ⟨tokens, .error e⟩ ∧
        scan (String.ofList before) = .ok tokens := by
  obtain ⟨tokens, c, rest, hm, hp, hfirst⟩ := (scan_eq_error_iff hle).mp h
  have hsource := hm.eq_append
  have hbefore : Text.byteLength (spelling (tokens.map piece)) ≤ maxSourceLength := by
    rw [hsource, Text.byteLength_append] at hle
    exact (Nat.le_add_right _ _).trans hle
  refine ⟨spelling (tokens.map piece), c :: rest, tokens, hsource, ?_, ?_, ?_⟩
  · exact (first_eq_error_iff_faultAt.mp hfirst).position_offset
  · exact ScanRun.startingAt_eq_error_iff.mpr ⟨c, rest, hm, hp, hfirst⟩
  · rw [scan_eq_ok_iff, String.toList_ofList]
    exact ⟨hbefore, hm.cut_all, hp⟩

/-! ## The record of a token -/

/-- **The record of a token**, told by the source: the line and the column of its first character,
and the token in words. The line of the token itself is later by the line feeds in its lexeme. -/
def Token.RecordedIn (source : List Char) (t : Token) (record : LogRecord) : Prop :=
  ∃ before, Text.slice? source 0 t.offset = some before ∧
    t.line = 1 + before.count '\n' + t.lexeme.toList.count '\n' ∧
    record = ⟨.trace, toString (1 + before.count '\n') ++ ":" ++
      toString (1 + (Text.lastLine before).length) ++ " " ++
      (t.kind.name ++ " " ++ Text.quoted t.lexeme ++ " " ++ t.literal.render)⟩

namespace Token

/-- **Placed tokens are recorded where the source says.** -/
theorem recordedIn_of_placed (h : Placed .start tokens) (rest : List Char) :
    List.Forall₂ (RecordedIn (spelling (tokens.map piece) ++ rest)) tokens
      (tokens.map logRecord) := by
  rw [List.forall₂_map_right_iff, List.forall₂_same]
  intro t ht
  obtain ⟨i, hi, rfl⟩ := List.getElem_of_mem ht
  refine ⟨spelling ((tokens.take i).map piece), ?_, ?_, ?_⟩
  · rw [offset_getElem h hi, ← spelling_take_append_drop tokens i, List.append_assoc]
    exact Text.slice?_start _ _
  · rw [line_getElem h hi, spelling_take_succ hi, List.count_append, Nat.add_assoc]
  · unfold logRecord
    rw [(isAt_getElem h hi).span, Position.start_after]
    rfl

end Token

end LoxTokenizer
