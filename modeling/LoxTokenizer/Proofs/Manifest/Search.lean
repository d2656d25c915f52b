import LoxTokenizer.Manifest.Search
import LoxTokenizer.Proofs.Files.Location

/-!
# What a search for a manifest finds

A search goes up a path as it is written. From the path of a location this is going up in the tree,
so what is found is the nearest manifest at the location or above. From another path it is not: a
search from a single dot looks at the working directory, and at nothing above it.

* `Manifest.Finds`: a search, step by step. **`Manifest.finds_iff`**: it is what `find?` does.
* `FileTree.HasManifest`: a directory has a manifest. `FileTree.Nearest`: the nearest manifest at a
  location or above.
* **`FileTree.finds_pathTo_iff`**: a search from the path of a location finds the nearest manifest.
* **`FileTree.finds_dot_iff`**: a search from a single dot finds the working directory's own, or
  none.
-/

namespace LoxTokenizer

namespace Manifest

variable {disk : Disk} {start above : Path} {result : Option Path}

/-! ## Going up a path -/

/-- **A search for a manifest**: it is in the directory, or it is searched for in the one above, as
long as there is one. -/
inductive Finds (disk : Disk) : Path → Option Path → Prop where
  | here {start : Path} (h : disk.isFile (start.join manifestFileName) = true) :
      Finds disk start (some (start.join manifestFileName))
  | above {start above : Path} {result : Option Path}
      (h : disk.isFile (start.join manifestFileName) = false)
      (hparent : start.parent? = some above) (hfinds : Finds disk above result) :
      Finds disk start result
  | nowhere {start : Path} (h : disk.isFile (start.join manifestFileName) = false)
      (hparent : start.parent? = none) : Finds disk start none

theorem candidates_of_parent? (h : start.parent? = some above) :
    candidates start = start.join manifestFileName :: candidates above := by
  rw [candidates]
  split
  · rename_i found heq
    obtain rfl := Option.some.inj (heq.symm.trans h)
    rfl
  · rename_i heq
    rw [h] at heq
    cases heq

theorem candidates_of_no_parent (h : start.parent? = none) :
    candidates start = [start.join manifestFileName] := by
  rw [candidates]
  split
  · rename_i found heq
    rw [h] at heq
    cases heq
  · rfl

theorem find?_of_isFile (h : disk.isFile (start.join manifestFileName) = true) :
    find? disk start = some (start.join manifestFileName) := by
  unfold find?
  cases hparent : start.parent? with
  | none => rw [candidates_of_no_parent hparent, List.find?_cons_of_pos h]
  | some above => rw [candidates_of_parent? hparent, List.find?_cons_of_pos h]

theorem find?_of_parent? (h : disk.isFile (start.join manifestFileName) = false)
    (hparent : start.parent? = some above) : find? disk start = find? disk above := by
  unfold find?
  rw [candidates_of_parent? hparent, List.find?_cons_of_neg (by simp [h])]

theorem find?_of_no_parent (h : disk.isFile (start.join manifestFileName) = false)
    (hparent : start.parent? = none) : find? disk start = none := by
  unfold find?
  rw [candidates_of_no_parent hparent, List.find?_cons_of_neg (by simp [h])]
  rfl

theorem finds_find? (disk : Disk) (start : Path) : Finds disk start (find? disk start) := by
  cases h : disk.isFile (start.join manifestFileName) with
  | true =>
    rw [find?_of_isFile h]
    exact .here h
  | false =>
    cases hparent : start.parent? with
    | none =>
      rw [find?_of_no_parent h hparent]
      exact .nowhere h hparent
    | some above =>
      rw [find?_of_parent? h hparent]
      exact .above h hparent (finds_find? disk above)
termination_by start.depth
decreasing_by exact Path.depth_parent? hparent

/-- **A search has one result.** -/
theorem finds_iff : Finds disk start result ↔ find? disk start = result := by
  constructor
  · intro h
    induction h with
    | here h => exact find?_of_isFile h
    | above h hparent _ ih => rw [find?_of_parent? h hparent, ih]
    | nowhere h hparent => exact find?_of_no_parent h hparent
  · rintro rfl
    exact finds_find? disk start

end Manifest

/-! ## Going up a tree -/

namespace FileTree

variable {tree : FileTree} {wd dir dir' : List String} {result result' : Option Path}

/-- A path leads, through any links, to a regular file. -/
def OpensFile (tree : FileTree) (wd : List String) (p : Path) : Prop :=
  ∃ content, tree.openAt wd p = .ok (.file content)

/-- **A directory has a manifest**: the path of its entry of that name leads to a regular file. -/
def HasManifest (tree : FileTree) (dir : List String) : Prop :=
  tree.OpensFile [] (pathTo (dir ++ [manifestFileName]))

/-- An entry of a directory leads, through any links, to a regular file. -/
def HasFile (tree : FileTree) (dir : List String) (name : String) : Prop :=
  ∃ location content, tree.follow maxLinks dir [name] = .ok location ∧
    tree.nodeAt location = .file content

/-- **The nearest manifest** at a location or above, if there is one. -/
inductive Nearest (tree : FileTree) (dir : List String) : Option Path → Prop where
  | found {holder : List String} (hpre : holder <+: dir) (h : tree.HasManifest holder)
      (hfar : ∀ other, other <+: dir → tree.HasManifest other → other.length ≤ holder.length) :
      Nearest tree dir (some (pathTo (holder ++ [manifestFileName])))
  | none (h : ∀ other, other <+: dir → ¬ tree.HasManifest other) : Nearest tree dir none

/-- What a path opens, by following it. -/
theorem opensFile_iff {p : Path} : tree.OpensFile wd p ↔
    p.hasNul = false ∧ p.text.utf8ByteSize ≤ maxPathBytes ∧ p ≠ .empty ∧
      ∃ location content, tree.follow maxLinks (if p.isAbsolute then [] else wd) p.pieces =
        .ok location ∧ tree.nodeAt location = .file content := by
  unfold OpensFile openAt locate
  cases p.hasNul with
  | true => simp [Except.map]
  | false =>
    rw [← Nat.not_lt]
    by_cases hsize : maxPathBytes < p.text.utf8ByteSize
    · simp [hsize]
    · by_cases hempty : p = .empty
      · subst hempty
        simp [hsize, Except.map]
      · cases tree.follow maxLinks (if p.isAbsolute then [] else wd) p.pieces <;>
          simp [hsize, hempty, Except.map]

theorem isFile_disk_iff {p : Path} : (tree.disk wd).isFile p = true ↔ tree.OpensFile wd p := by
  unfold disk OpensFile
  dsimp only
  cases tree.openAt wd p with
  | error e => simp
  | ok node => cases node <;> simp

theorem isFile_disk_eq_false_iff {p : Path} :
    (tree.disk wd).isFile p = false ↔ ¬ tree.OpensFile wd p := by
  rw [← isFile_disk_iff, Bool.not_eq_true]

theorem isFile_manifest (hdir : ∀ name ∈ dir, IsName name) :
    (tree.disk wd).isFile ((pathTo dir).join manifestFileName) = true ↔ tree.HasManifest dir := by
  rw [isFile_disk_iff, join_pathTo hdir]
  unfold OpensFile HasManifest OpensFile
  rw [openAt_pathTo]

theorem Nearest.unique (h : tree.Nearest dir result) (h' : tree.Nearest dir result') :
    result = result' := by
  cases h with
  | found hpre hhas hfar =>
    cases h' with
    | found hpre' hhas' hfar' =>
      have hlength := Nat.le_antisymm (hfar' _ hpre hhas) (hfar _ hpre' hhas')
      rw [(List.prefix_of_prefix_length_le hpre hpre' hlength.le).eq_of_length hlength]
    | none hnone => exact absurd hhas (hnone _ hpre)
  | none hnone =>
    cases h' with
    | found hpre' hhas' _ => exact absurd hhas' (hnone _ hpre')
    | none _ => rfl

theorem Nearest.here (h : tree.HasManifest dir) :
    tree.Nearest dir (some (pathTo (dir ++ [manifestFileName]))) :=
  .found (List.prefix_refl dir) h fun _ hpre _ => hpre.length_le

/-- A directory without a manifest leaves it to those above. -/
theorem Nearest.concat {name : String} (h : tree.Nearest dir result)
    (hno : ¬ tree.HasManifest (dir ++ [name])) : tree.Nearest (dir ++ [name]) result := by
  have above {other : List String} (hpre : other <+: dir ++ [name])
      (hhas : tree.HasManifest other) : other <+: dir := by
    rcases List.prefix_concat_iff.mp hpre with rfl | hpre
    · exact absurd hhas hno
    · exact hpre
  cases h with
  | found hpre hhas hfar =>
    exact .found (hpre.trans (List.prefix_append _ _)) hhas fun other hother hhas' =>
      hfar other (above hother hhas') hhas'
  | none hnone => exact .none fun other hother hhas => hnone other (above hother hhas) hhas

/-- A search from the path of a location goes up in the tree. -/
theorem nearest_find? (hdir : ∀ name ∈ dir, IsName name) :
    tree.Nearest dir (Manifest.find? (tree.disk wd) (pathTo dir)) := by
  induction dir using List.reverseRecOn with
  | nil =>
    have hfile : (tree.disk wd).isFile ((pathTo []).join manifestFileName) = true ↔
        tree.HasManifest [] := isFile_manifest hdir
    cases h : (tree.disk wd).isFile ((pathTo []).join manifestFileName) with
    | true =>
      rw [Manifest.find?_of_isFile h]
      exact .here (hfile.mp h)
    | false =>
      rw [Manifest.find?_of_no_parent h parent?_root]
      refine .none fun other hother hhas => ?_
      obtain rfl := List.prefix_nil.mp hother
      rw [hfile.mpr hhas] at h
      cases h
  | append_singleton dir name ih =>
    have hfile : (tree.disk wd).isFile ((pathTo (dir ++ [name])).join manifestFileName) = true ↔
        tree.HasManifest (dir ++ [name]) := isFile_manifest hdir
    obtain ⟨habove, hname⟩ := List.forall_mem_append.mp hdir
    cases h : (tree.disk wd).isFile ((pathTo (dir ++ [name])).join manifestFileName) with
    | true =>
      rw [Manifest.find?_of_isFile h, join_pathTo hdir]
      exact .here (hfile.mp h)
    | false =>
      have hparent := parent?_pathTo_concat habove (List.forall_mem_singleton.mp hname)
      rw [Manifest.find?_of_parent? h hparent]
      refine (ih habove).concat fun hhas => ?_
      rw [hfile.mpr hhas] at h
      cases h

/-- **A search from the path of a location finds the nearest manifest** at the location or above. -/
theorem finds_pathTo_iff (hdir : ∀ name ∈ dir, IsName name) :
    Manifest.Finds (tree.disk wd) (pathTo dir) result ↔ tree.Nearest dir result := by
  rw [Manifest.finds_iff]
  constructor
  · rintro rfl
    exact nearest_find? hdir
  · exact (nearest_find? hdir).unique

/-! ## Searching from a single dot -/

/-- **The working directory's own manifest**, if it has one. -/
inductive Own (tree : FileTree) (wd : List String) : Option Path → Prop where
  | found (h : tree.HasFile wd manifestFileName) : Own tree wd (some (.ofText "./Lox.toml"))
  | none (h : ¬ tree.HasFile wd manifestFileName) : Own tree wd none

theorem Own.unique (h : tree.Own wd result) (h' : tree.Own wd result') : result = result' := by
  cases h with
  | found h =>
    cases h' with
    | found _ => rfl
    | none hnone => exact absurd h hnone
  | none hnone =>
    cases h' with
    | found h => exact absurd h hnone
    | none _ => rfl

theorem opensFile_own_iff : tree.OpensFile wd (.ofText "Lox.toml") ↔
    tree.HasFile wd manifestFileName := by
  rw [opensFile_iff]
  exact ⟨fun h => h.2.2.2,
    fun h => ⟨by decide +kernel, by decide +kernel, by decide +kernel, h⟩⟩

/-- A dot before a name says nothing. -/
theorem opensFile_dot_own_iff : tree.OpensFile wd (.ofText "./Lox.toml") ↔
    tree.HasFile wd manifestFileName := by
  have hdot : tree.follow maxLinks wd [".", "Lox.toml"] = tree.follow maxLinks wd ["Lox.toml"] :=
    follow_stays (.inr rfl) _
  have hpieces : (Path.ofText "./Lox.toml").pieces = [".", "Lox.toml"] := by decide +kernel
  rw [opensFile_iff, if_neg (by decide +kernel), hpieces, hdot]
  exact ⟨fun h => h.2.2.2,
    fun h => ⟨by decide +kernel, by decide +kernel, by decide +kernel, h⟩⟩

/-- **A search from a single dot finds the working directory's own manifest**, or none: what is left
when the dot is taken off is the working directory again, and that has nothing above it. -/
theorem finds_dot_iff :
    Manifest.Finds (tree.disk wd) (.ofText ".") result ↔ tree.Own wd result := by
  have hdot : (Path.ofText ".").join manifestFileName = .ofText "./Lox.toml" := by decide +kernel
  have hempty : Path.empty.join manifestFileName = .ofText "Lox.toml" := by decide +kernel
  have hown : tree.Own wd (Manifest.find? (tree.disk wd) (.ofText ".")) := by
    by_cases h : tree.HasFile wd manifestFileName
    · have hfile := isFile_disk_iff.mpr (opensFile_dot_own_iff.mpr h)
      rw [← hdot] at hfile
      rw [Manifest.find?_of_isFile hfile, hdot]
      exact .found h
    · have hfile := isFile_disk_eq_false_iff.mpr (mt opensFile_dot_own_iff.mp h)
      have hagain := isFile_disk_eq_false_iff.mpr (mt opensFile_own_iff.mp h)
      rw [← hdot] at hfile
      rw [← hempty] at hagain
      rw [Manifest.find?_of_parent? hfile (by decide +kernel : _ = some Path.empty),
        Manifest.find?_of_no_parent hagain (by decide +kernel)]
      exact .none h
  rw [Manifest.finds_iff]
  constructor
  · rintro rfl
    exact hown
  · exact hown.unique

end FileTree

end LoxTokenizer
