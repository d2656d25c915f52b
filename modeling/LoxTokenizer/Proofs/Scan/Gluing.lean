import LoxTokenizer.Proofs.Scan.Rescan

/-!
# Scanning one source behind another

Whether the tokens of `a ++ b` are those of `a` and then those of `b` is decided by the last two
tokens of `a` and the first two characters of `b`: `Glue` lists the pairs for which it fails.
Where nothing glues, the scan of `b` only moves behind `a`, be it tokens or an error. Where
something glues, no token of `a ++ b` starts or ends where `a` ends.

* `scan_append_of_ok`, `scan_append_of_error`: the scan of `a ++ b` where nothing glues.
* `not_glue_of_boundary`: a token boundary where `a` ends means that nothing glues.
* **`scan_append`**: the law of glueing.
-/

namespace LoxTokenizer

open Lexeme Token

variable {a b : String} {A : List Token}

theorem Text.append_inj_of_byteLength {before behind before' behind' : List Char}
    (h : before ++ behind = before' ++ behind')
    (hlen : Text.byteLength before = Text.byteLength before') :
    before = before' ∧ behind = behind' := by
  have hsplit := Text.splitAt?_byteLength before behind
  rw [h, hlen, Text.splitAt?_byteLength] at hsplit
  obtain ⟨rfl, rfl⟩ := Prod.mk.inj (Option.some.inj hsplit)
  exact ⟨rfl, rfl⟩

/-! ## Sources that do not glue -/

theorem scan_append_of_ok {B : List Token} (ha : scan a = .ok A) (hb : scan b = .ok B)
    (hle : Text.byteLength a.toList + Text.byteLength b.toList ≤ maxSourceLength)
    (hg : ¬ Glue (A.map piece) b.toList) :
    scan (a ++ b) = .ok (A ++ B.map (rebase a.toList)) := by
  obtain ⟨-, hma, hpa⟩ := scan_eq_ok_iff.mp ha
  obtain ⟨-, hmb, hpb⟩ := scan_eq_ok_iff.mp hb
  refine scan_eq_ok_iff.mpr ⟨?_, ?_, ?_⟩
  · rwa [String.toList_append, Text.byteLength_append]
  · rw [String.toList_append, List.map_append, map_piece_rebase]
    exact (hma.extend hg).trans hmb
  · rw [placed_append, ← hma.eq_spelling, ← Position.rebase_start]
    exact ⟨hpa, placed_rebase hpb (Nat.le_refl 1)⟩

theorem scan_append_of_error {e : ScanError} (ha : scan a = .ok A) (hb : scan b = .error e)
    (hle : Text.byteLength a.toList + Text.byteLength b.toList ≤ maxSourceLength)
    (hg : ¬ Glue (A.map piece) b.toList) :
    scan (a ++ b) = .error (e.rebase a.toList) := by
  obtain ⟨-, hma, hpa⟩ := scan_eq_ok_iff.mp ha
  obtain ⟨B, c, rest, hmb, hpb, hfirst⟩ := (scan_eq_error_iff (by omega)).mp hb
  have hlong : Text.byteLength (a ++ b).toList ≤ maxSourceLength := by
    rwa [String.toList_append, Text.byteLength_append]
  refine (scan_eq_error_iff hlong).mpr ⟨A ++ B.map (rebase a.toList), c, rest, ?_, ?_, ?_⟩
  · rw [String.toList_append, List.map_append, map_piece_rebase]
    exact (hma.extend hg).trans hmb
  · rw [placed_append, ← hma.eq_spelling, ← Position.rebase_start]
    exact ⟨hpa, placed_rebase hpb (Nat.le_refl 1)⟩
  · have hone : 1 ≤ (Position.start.after (spelling (B.map piece))).line :=
      Position.one_le_line_after (Nat.le_refl 1) _
    rw [List.map_append, map_piece_rebase, spelling_append, Position.after_append,
      ← hma.eq_spelling, ← Position.rebase_start, Position.rebase_after (Nat.le_refl 1)]
    exact first_rebase_error hone hfirst

/-! ## Sources that glue -/

/-- **A token boundary where `a` ends** cuts the munch of `a ++ b` there, so the pieces before it
are those of `a`, and `b` does not glue to them. -/
theorem not_glue_of_boundary {T : List Token} {n : Nat} (ha : scan a = .ok A)
    (hT : scan (a ++ b) = .ok T)
    (hn : Text.byteLength (spelling ((T.take n).map piece)) = Text.byteLength a.toList) :
    ¬ Glue (A.map piece) b.toList := by
  have hm := munch_of_scan hT
  rw [← List.take_append_drop n T, List.map_append, String.toList_append] at hm
  obtain ⟨middle, htake, -⟩ := hm.split
  obtain ⟨htext, rfl⟩ := Text.append_inj_of_byteLength htake.eq_append.symm hn
  have hsame : (T.take n).map piece = A.map piece := by
    refine Munch.unique ?_ (munch_of_scan ha)
    rw [← htext]
    exact htake.cut_all
  rw [← hsame]
  exact htake.not_glue

/-! ## The law -/

/-- **The law of glueing.** Of a source `a` that scans and a source `b`, no more than the size limit
together: where `b` does not glue to the tokens of `a`, the scan of `a ++ b` is that of `b` moved
behind `a`, with the tokens of `a` before its tokens. Where it glues, the tokens of `a` do not
start those of `a ++ b`, and not one of these starts or ends where `a` ends. -/
theorem scan_append (ha : scan a = .ok A)
    (hle : Text.byteLength a.toList + Text.byteLength b.toList ≤ maxSourceLength) :
    (¬ Glue (A.map piece) b.toList →
      (∀ B, scan b = .ok B → scan (a ++ b) = .ok (A ++ B.map (rebase a.toList))) ∧
        ∀ e, scan b = .error e → scan (a ++ b) = .error (e.rebase a.toList)) ∧
      (Glue (A.map piece) b.toList → ∀ T, scan (a ++ b) = .ok T →
        ¬ A <+: T ∧ ∀ t ∈ T, t.offset ≠ Text.byteLength a.toList ∧
          t.endOffset ≠ Text.byteLength a.toList) := by
  constructor
  · intro hg
    exact ⟨fun B hb => scan_append_of_ok ha hb hle hg,
      fun e hb => scan_append_of_error ha hb hle hg⟩
  · intro hg T hT
    obtain ⟨-, -, hp⟩ := scan_eq_ok_iff.mp hT
    refine ⟨?_, fun t ht => ⟨?_, ?_⟩⟩
    · rintro ⟨more, rfl⟩
      have hn : Text.byteLength (spelling (((A ++ more).take A.length).map piece)) =
          Text.byteLength a.toList := by
        rw [List.take_left, ← (munch_of_scan ha).eq_spelling]
      exact not_glue_of_boundary ha hT hn hg
    · obtain ⟨i, hi, rfl⟩ := List.getElem_of_mem ht
      intro hstart
      rw [offset_getElem hp hi] at hstart
      exact not_glue_of_boundary ha hT hstart hg
    · obtain ⟨i, hi, rfl⟩ := List.getElem_of_mem ht
      intro hend
      rw [endOffset_getElem hp hi] at hend
      exact not_glue_of_boundary ha hT hend hg

/-- A digit glues to a numeral and its point; a string without its end does not glue to a string
over two lines. -/
theorem scan_append_point :
    (∃ A, scan "x1 1." = .ok A ∧ ∀ T, scan ("x1 1." ++ "5") = .ok T → ¬ A <+: T) ∧
      ∃ e, scan "\"y" = .error e ∧
        scan ("\"é\n\"" ++ "\"y") = .error (e.rebase "\"é\n\"".toList) := by
  constructor
  · have hs : (scan "x1 1.").map (List.map piece) =
        .ok [(.identifier, ['x', '1']), (.space, [' ']), (.number, ['1']), (.dot, ['.'])] := by
      decide +kernel
    obtain ⟨A, h, hA⟩ := exists_of_map_eq_ok hs
    have hle : Text.byteLength "x1 1.".toList + Text.byteLength "5".toList ≤ maxSourceLength := by
      decide
    have hg : Glue (A.map piece) "5".toList := by
      rw [hA]
      exact .point [_, _] (by decide) (by decide)
    exact ⟨A, h, fun T hT => ((scan_append h hle).2 hg T hT).1⟩
  · have hs : (scan "\"é\n\"").map (List.map piece) = .ok [(.string, ['"', 'é', '\n', '"'])] := by
      decide +kernel
    have he : (scan "\"y").map (List.map piece) =
        .error (.unterminatedString ⟨⟨1, 1, 0⟩, ⟨1, 3, 2⟩⟩) := by
      decide +kernel
    obtain ⟨A, h, hA⟩ := exists_of_map_eq_ok hs
    have hle : Text.byteLength "\"é\n\"".toList + Text.byteLength "\"y".toList ≤
        maxSourceLength := by
      decide
    have hg : ¬ Glue (A.map piece) "\"y".toList := by
      have hquote : CharClass.isWordPart '"' = false := by decide
      rw [hA, ← List.nil_append [(TokenKind.string, ['"', 'é', '\n', '"'])], glue_concat_iff]
      simp [Extends, hquote]
    exact ⟨_, eq_error_of_map he,
      ((scan_append h hle).1 hg).2 _ (eq_error_of_map he)⟩

end LoxTokenizer
