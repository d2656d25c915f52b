import LoxTokenizer.Proofs.Files.Climb
import LoxTokenizer.Proofs.Manifest.Search

/-!
# The first candidate is the manifest

The candidates for the manifest of a directory are told by how often its path is gone up. There are
as many as the path has components, and one more; the first that is a regular file is the manifest,
whatever is in it, and where none is there are the defaults.

* `Path.Walk`: the walk up a path. `Path.walk`: every path has it.
* `Manifest.getElem?_candidates`: a candidate, by how often the path is gone up.
* `Manifest.First`: the first candidate that is a regular file. **`Manifest.find?_eq_iff_first`**:
  it is what a search finds.
* **`Manifest.discover_first`**: what a search finds is what is loaded, for every disk and path.
-/

namespace LoxTokenizer

variable {disk : Disk} {start dir p : Path} {result : Option Path} {n : ℕ} {manifest : Manifest}

/-- **The walk up a path**: once for each component, and no more. -/
structure Path.Walk (start : Path) : Prop where
  ends : ∀ n, (∃ dir, start.climb n = some dir) ↔ n ≤ start.components.length
  /-- What is left after some times are the first components, of a path that is absolute or relative
  as it was. -/
  left : ∀ n dir, start.climb n = some dir →
    dir.components = start.components.take (start.components.length - n) ∧
      dir.isAbsolute = start.isAbsolute
  /-- At the end no component is left, and of a relative path nothing at all. -/
  top : ∀ dir, start.climb start.components.length = some dir →
    dir.parent? = none ∧ (start.isAbsolute = false → dir.text = "")

theorem Path.walk (start : Path) : start.Walk where
  ends _ := exists_climb_iff
  left _ _ h := ⟨(components_of_climb h).2, isAbsolute_of_climb h⟩
  top dir h := by
    have hnone : dir.components = [] := by
      rw [(components_of_climb h).2, Nat.sub_self, List.take_zero]
    refine ⟨parent?_eq_none_iff.mpr hnone, fun hrelative => ?_⟩
    exact text_of_components_eq_nil hnone ((isAbsolute_of_climb h).trans hrelative)

namespace Manifest

/-! ## The candidates -/

/-- **A candidate**, by how often the path is gone up. -/
theorem getElem?_candidates (start : Path) (n : ℕ) :
    (candidates start)[n]? = (start.climb n).map fun dir => dir.join manifestFileName := by
  induction n generalizing start with
  | zero =>
    cases hparent : start.parent? with
    | none =>
      rw [candidates_of_no_parent hparent]
      rfl
    | some above =>
      rw [candidates_of_parent? hparent]
      rfl
  | succ n ih =>
    unfold Path.climb
    cases hparent : start.parent? with
    | none =>
      rw [candidates_of_no_parent hparent]
      rfl
    | some above =>
      rw [candidates_of_parent? hparent, List.getElem?_cons_succ, ih]
      rfl

/-- **The first candidate** that is a regular file, if there is one. -/
inductive First (disk : Disk) (start : Path) : Option Path → Prop where
  | found {n : ℕ} {dir : Path} (hclimb : start.climb n = some dir)
      (hfile : disk.isFile (dir.join manifestFileName) = true)
      (hnearer : ∀ k < n, ∀ nearer, start.climb k = some nearer →
        disk.isFile (nearer.join manifestFileName) = false) :
      First disk start (some (dir.join manifestFileName))
  | none (h : ∀ n dir, start.climb n = some dir →
      disk.isFile (dir.join manifestFileName) = false) : First disk start none

theorem first_find? (disk : Disk) (start : Path) : First disk start (find? disk start) := by
  have hcandidate {n : ℕ} {dir : Path} (h : start.climb n = some dir) :
      (candidates start)[n]? = some (dir.join manifestFileName) := by
    rw [getElem?_candidates, h]
    rfl
  cases hfind : find? disk start with
  | none =>
    refine .none fun n dir hclimb => ?_
    have hnone := List.find?_eq_none.mp hfind _ (List.mem_of_getElem? (hcandidate hclimb))
    simpa using hnone
  | some p =>
    obtain ⟨hfile, n, hn, rfl, hnearer⟩ := List.find?_eq_some_iff_getElem.mp hfind
    have hget := List.getElem?_eq_getElem hn
    rw [getElem?_candidates, Option.map_eq_some_iff] at hget
    obtain ⟨dir, hclimb, hdir⟩ := hget
    rw [← hdir] at hfile ⊢
    refine .found hclimb hfile fun k hk nearer hclimb' => ?_
    have hbefore := hnearer k hk
    obtain ⟨_, heq⟩ := List.getElem?_eq_some_iff.mp (hcandidate hclimb')
    rw [heq] at hbefore
    simpa using hbefore

theorem First.unique {result' : Option Path} (h : First disk start result)
    (h' : First disk start result') : result = result' := by
  cases h with
  | @found n dir hclimb hfile hnearer =>
    cases h' with
    | @found n' dir' hclimb' hfile' hnearer' =>
      rcases Nat.lt_trichotomy n n' with hlt | rfl | hlt
      · rw [hnearer' n hlt dir hclimb] at hfile
        cases hfile
      · rw [Option.some.inj (hclimb.symm.trans hclimb')]
      · rw [hnearer n' hlt dir' hclimb'] at hfile'
        cases hfile'
    | none h =>
      rw [h n dir hclimb] at hfile
      cases hfile
  | none h =>
    cases h' with
    | found hclimb hfile _ =>
      rw [h _ _ hclimb] at hfile
      cases hfile
    | none _ => rfl

/-- **A search finds the first candidate** that is a regular file. -/
theorem find?_eq_iff_first : find? disk start = result ↔ First disk start result := by
  constructor
  · rintro rfl
    exact first_find? disk start
  · exact (first_find? disk start).unique

/-! ## Loading what is found -/

theorem discover_of_some (h : find? disk start = some p) : discover disk start = load disk p := by
  unfold discover
  rw [h]

theorem discover_of_none (h : find? disk start = none) : discover disk start = .ok .default := by
  unfold discover
  rw [h]

/-- A manifest knows the file it is from. -/
theorem path_of_load (h : load disk p = .ok manifest) : manifest.path = some p := by
  unfold load at h
  split at h
  · cases h
  · rename_i text _
    cases hparse : parse text with
    | error e =>
      rw [hparse] at h
      cases h
    | ok found =>
      rw [hparse] at h
      cases h
      rfl

/-- So no file holds the defaults themselves. -/
theorem discover_eq_default_iff :
    discover disk start = .ok .default ↔ find? disk start = none := by
  refine ⟨fun h => ?_, discover_of_none⟩
  cases hfind : find? disk start with
  | none => rfl
  | some p =>
    rw [discover_of_some hfind] at h
    cases path_of_load h

/-- **The first candidate is the manifest**, for every disk and every path to start from.

* A search ends: it goes up the path once for each component, down to the empty path if it is
  relative, and comes to one result.
* It finds the first candidate on this way that is a regular file, and nothing if there is none.
* What it finds is what is loaded: the manifest knows the path of it, and its error is the error,
  whatever the candidates further up.
* There are the defaults exactly if it finds nothing.
* In a tree, a candidate is a regular file if its path leads to one, once all links are followed: a
  directory is none, nor is a link to nothing. -/
theorem discover_first (disk : Disk) (start : Path) :
    (start.Walk ∧ ∃! result, Finds disk start result) ∧
    (∀ result, find? disk start = result ↔ First disk start result) ∧
    (∀ p, First disk start (some p) → discover disk start = load disk p ∧
      ∀ manifest, load disk p = .ok manifest → manifest.path = some p) ∧
    (discover disk start = .ok .default ↔ First disk start none) ∧
    ∀ (tree : FileTree) (wd : List String) (p : Path), (tree.disk wd).isFile p = true ↔
      ∃ content, tree.openAt wd p = .ok (.file content) := by
  refine ⟨⟨start.walk, find? disk start, finds_find? disk start, ?_⟩, fun _ => find?_eq_iff_first,
    fun p hp => ⟨?_, fun _ => path_of_load⟩, ?_, fun _ _ _ => FileTree.isFile_disk_iff⟩
  · exact fun result hresult => (finds_iff.mp hresult).symm
  · exact discover_of_some (find?_eq_iff_first.mpr hp)
  · rw [discover_eq_default_iff, find?_eq_iff_first]

end Manifest

end LoxTokenizer
