import LoxTokenizer.Proofs.Prompt.Truncation

/-!
# A handle that gives out only cuts a run short

A run writes to a handle that takes `n` bytes and no more. It writes what it would have written
anyway, as far as there is room; if all of it has room the handle makes no difference; and if not,
the write that has no room is the last thing that the run does. This is so for a listing, because
writing in pieces is writing at once, and from there for a run over a file; a run at the prompt is
told in its own module.

* `Sink.writeAll_limited`: a listing with such a handle.
* **`FileRun.run_truncates`**: a run over a file with such a handle, beside the same run with a
  handle that never fails.
* **`output_truncates`**: a failing write only cuts a run short, and so does a failing flush.
-/

namespace LoxTokenizer

/-! ## A listing -/

namespace Sink

/-- **Writing to a fresh handle of `n` bytes.** -/
theorem writeAll_limited (n : Nat) (texts : List String) :
    ∃ cut, cut.bytes = (utf8 (String.join texts)).take n ∧
      (limited (some n) none).writeAll texts =
        if (utf8 (String.join texts)).length ≤ n then .ok cut else .error cut := by
  have hempty : (limited (some n) none).bytes = [] := rfl
  rw [writeAll_eq_write]
  by_cases hle : (utf8 (String.join texts)).length ≤ n
  · have hroom : (limited (some n) none).HasRoom (utf8 (String.join texts)) := by
      rw [hasRoom_iff_of_capacity rfl, hempty]
      exact hle
    refine ⟨_, ?_, (write_of_hasRoom hroom).trans (if_pos hle).symm⟩
    rw [bytes_grown, hempty, List.nil_append, List.take_of_length_le hle]
  · have hlt : n < ((limited (some n) none).bytes ++ utf8 (String.join texts)).length :=
      Nat.lt_of_not_le hle
    obtain ⟨full, hwrite, hbytes⟩ := write_of_full rfl (Nat.zero_le n) hlt
    exact ⟨full, hbytes, hwrite.trans (if_neg hle).symm⟩

end Sink

/-! ## A run over a file -/

namespace FileRun

/-- **A run over a file, cut short**: `cut` is what it leaves with a handle of `n` bytes, and `full`
with one that never fails. -/
structure Truncates (n : Nat) (full cut : Outcome) : Prop where
  output : cut.output = full.output.take n
  same : full.output.length ≤ n → cut = full
  status : n < full.output.length → cut.status.code = 74
  /-- The failure is told, and no summary is given. -/
  errors : n < full.output.length →
    cut.errors = errorLine ("could not write tokens: " ++ Sink.failure)

/-- A run that writes nothing is not cut. -/
theorem Truncates.of_output_nil {n : Nat} {outcome : Outcome} (h : outcome.output = []) :
    Truncates n outcome outcome where
  output := by rw [h, List.take_nil]
  same _ := rfl
  status hlt := by simp [h] at hlt
  errors hlt := by simp [h] at hlt

theorem list_truncates (settings : Settings) (n : Nat) (file : Path) (tokens : List Token) :
    Truncates n (list settings .unlimited file tokens)
      (list settings (.limited (some n) none) file tokens) := by
  obtain ⟨cut, hcut, hsome⟩ := Sink.writeAll_limited n (settings.listing tokens)
  rw [list_unlimited]
  unfold list
  rw [hsome]
  by_cases hle : (utf8 (String.join (settings.listing tokens))).length ≤ n
  · have hnot : ¬ n < (utf8 (String.join (settings.listing tokens))).length := Nat.not_lt.mpr hle
    rw [if_pos hle]
    rw [List.take_of_length_le hle] at hcut
    dsimp only
    rw [hcut]
    exact ⟨(List.take_of_length_le hle).symm, fun _ => rfl, fun h => absurd h hnot,
      fun h => absurd h hnot⟩
  · rw [if_neg hle]
    exact ⟨hcut, fun h => absurd h hle, fun _ => rfl, fun _ => rfl⟩

theorem run_truncates (disk : Disk) (settings : Settings) (n : Nat) (file : Path) :
    Truncates n (run disk settings .unlimited file)
      (run disk settings (.limited (some n) none) file) := by
  unfold run
  cases disk.readText file with
  | error cause => exact .of_output_nil rfl
  | ok source =>
    dsimp only
    cases settings.scan source with
    | error e => exact .of_output_nil rfl
    | ok tokens => exact list_truncates settings n file tokens

end FileRun

/-! ## Any run -/

/-- **A failing output only truncates.** A handle that takes `n` bytes and no more leaves the first
`n` bytes of a listing, of the output of a run over a file and of that of a run at the prompt. Where
all has room nothing else is different. Where it has not, the listing fails; a run ends with the
status 74; over a file it gives no summary; and at the prompt it has read the lines whose prompt was
written in full, and no other. At the prompt the flush behind the lines `heard` may fail as well: if
it is reached the run ends with the status 74 behind that prompt and has read these lines, and no
other; if it is not reached it makes no difference. -/
theorem output_truncates (settings : Settings) (n : Nat) :
    (∀ tokens, ∃ full cut, Sink.unlimited.writeAll (settings.listing tokens) = .ok full ∧
      cut.bytes = full.bytes.take n ∧
      (Sink.limited (some n) none).writeAll (settings.listing tokens) =
        if full.bytes.length ≤ n then .ok cut else .error cut) ∧
    (∀ disk file, FileRun.Truncates n (FileRun.run disk settings .unlimited file)
      (FileRun.run disk settings (.limited (some n) none) file)) ∧
    (∀ input, Prompt.Truncates settings input n (Prompt.run settings .unlimited input)
      (Prompt.run settings (.limited (some n) none) input)) ∧
    ∀ capacity input,
      (∀ heard, Prompt.Reaches settings capacity (Prompt.lines input) heard →
        Prompt.run settings (.limited capacity (some (heard.length + 1))) input =
          ⟨⟨.ioFailure, Prompt.spoken settings heard ++ utf8 settings.prompt,
            Prompt.complaints settings heard ++ Prompt.promptFailure⟩, heard.flatten.length⟩ ∧
        ExitStatus.ioFailure.code = 74) ∧
      ∀ k, (∀ heard, heard.length = k →
          ¬ Prompt.Reaches settings capacity (Prompt.lines input) heard) →
        Prompt.run settings (.limited capacity (some (k + 1))) input =
          Prompt.run settings (.limited capacity none) input := by
  refine ⟨fun tokens => ?_, fun disk file => FileRun.run_truncates disk settings n file,
    Prompt.run_truncates settings n, fun capacity input =>
      ⟨fun heard h => ⟨Prompt.run_of_badFlush h, rfl⟩, fun k => Prompt.run_of_not_reaches⟩⟩
  obtain ⟨full, hfull, hall⟩ := Sink.writeAll_unlimited (settings.listing tokens)
  obtain ⟨cut, hcut, hsome⟩ := Sink.writeAll_limited n (settings.listing tokens)
  rw [← hfull] at hcut hsome
  exact ⟨full, cut, hall, hcut, hsome⟩

/-- Two lines, with a handle that gives out in the first listing, with one that fails the second
flush, and with one that would fail a fourth. -/
theorem output_truncates_two_lines :
    (Prompt.run ⟨.text, true, false, "> ", false⟩ (.limited (some 9) none) (utf8 "1\nx")).output =
      utf8 "> NUMBER " ∧
    (Prompt.run ⟨.text, true, false, "> ", false⟩ (.limited (some 9) none)
      (utf8 "1\nx")).status.code = 74 ∧
    (Prompt.run ⟨.text, true, false, "> ", false⟩ (.limited none (some 2)) (utf8 "1\nx")).output =
      utf8 "> NUMBER \"1\" 1.0\n> " ∧
    Prompt.run ⟨.text, true, false, "> ", false⟩ (.limited none (some 4)) (utf8 "1\nx") =
      Prompt.run ⟨.text, true, false, "> ", false⟩ (.limited none none) (utf8 "1\nx") := by
  obtain ⟨-, -, hrun, hflush⟩ := output_truncates ⟨.text, true, false, "> ", false⟩ 9
  have hreaches : Prompt.Reaches ⟨.text, true, false, "> ", false⟩ none
      (Prompt.lines (utf8 "1\nx")) [utf8 "1\n"] :=
    ⟨by decide +kernel, by decide +kernel, fun _ h => nomatch h⟩
  refine ⟨?_, ((hrun (utf8 "1\nx")).stops (by decide +kernel)).1, ?_, ?_⟩
  · rw [(hrun (utf8 "1\nx")).output]
    decide +kernel
  · have hcut := ((hflush none (utf8 "1\nx")).1 _ hreaches).1
    rw [show [utf8 "1\n"].length + 1 = 2 from rfl] at hcut
    rw [hcut]
    decide +kernel
  · refine (hflush none (utf8 "1\nx")).2 3 fun heard hlength h => ?_
    have hle := h.first.length_le
    rw [hlength] at hle
    revert hle
    decide +kernel

end LoxTokenizer
