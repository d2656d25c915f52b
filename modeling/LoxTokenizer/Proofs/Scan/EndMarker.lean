import LoxTokenizer.Proofs.Scan.Run

/-!
# The marker of the end

A scan with a marker is a scan. It finds the same tokens and fails with the same error; where it
succeeds, one more token stands at the place behind the whole source.

* **`scanWithEof_eq_map`**: the marked scan, told by the unmarked one.
* `Token.isAt_eof`: the marker is a token like any other, placed, of an empty lexeme.
-/

namespace LoxTokenizer

open Token

variable {source : String} {tokens : List Token} {e : ScanError}

/-- **A marked scan** is the scan with the marker behind its tokens. -/
theorem scanWithEof_eq_map (source : String) : scanWithEof source = (scan source).map
    fun tokens => tokens ++ [Token.eof (Position.start.after source.toList)] := by
  unfold scanWithEof scan
  cases checkSourceLength (Text.byteLength source.toList) with
  | error e => rfl
  | ok _ =>
    dsimp only
    cases ho : (ScanRun.of source).outcome with
    | error e => rfl
    | ok place =>
      obtain ⟨-, -, rfl⟩ := ScanRun.startingAt_eq_ok_iff.mp (ScanRun.startingAt_start ho)
      rfl

theorem scanWithEof_eq_error_iff : scanWithEof source = .error e ↔ scan source = .error e := by
  rw [scanWithEof_eq_map]
  cases scan source with
  | error e' => exact Iff.rfl
  | ok tokens =>
    constructor
    · intro h
      cases h
    · intro h
      cases h

theorem scanWithEof_eq_ok_iff : scanWithEof source = .ok tokens ↔
    ∃ found, scan source = .ok found ∧
      tokens = found ++ [Token.eof (Position.start.after source.toList)] := by
  rw [scanWithEof_eq_map]
  cases scan source with
  | error e =>
    constructor
    · intro h
      cases h
    · rintro ⟨found, h, -⟩
      cases h
  | ok found =>
    constructor
    · intro h
      cases h
      exact ⟨found, rfl, rfl⟩
    · rintro ⟨found', h, rfl⟩
      cases h
      rfl

namespace Token

theorem isAt_eof (place : Position) : (Token.eof place).IsAt place where
  span := rfl
  literal := rfl

end Token

end LoxTokenizer
