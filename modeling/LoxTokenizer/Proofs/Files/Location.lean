import LoxTokenizer.Proofs.Files.Way
import Mathlib.Data.List.DropRight

/-!
# Locations and their paths

A location has a path of its own, absolute and without links. Going up from it is going up in the
tree, as far as the root, and the root is what a path leads to that has no parent.

* **`FileTree.parent?_pathTo_concat`**: the parent of a location's path is the path of what holds
  the location.
* **`FileTree.locate_of_parent?_eq_none`**: a path without a parent leads to the root, unless it is
  empty.
-/

namespace LoxTokenizer.FileTree

variable {tree : FileTree} {links : Nat} {here location pieces : List String} {name : String}
  {p : Path}

/-! ## The path of a location -/

theorem IsName.isComponent (h : IsName name) (isFront : Bool) :
    Path.isComponent isFront name = true := by
  unfold Path.isComponent
  simp [h.ne_empty, h.ne_dot]

theorem pathTo_concat (location : List String) (name : String) :
    pathTo (location ++ [name]) = ⟨"" :: (location ++ [name])⟩ := by
  unfold pathTo
  simp

theorem isAbsolute_pathTo (location : List String) : (pathTo location).isAbsolute = true := by
  cases location with
  | nil => rfl
  | cons name location => rfl

theorem join_pathTo (h : ∀ name ∈ location, IsName name) (name : String) :
    (pathTo location).join name = pathTo (location ++ [name]) := by
  induction location using List.reverseRecOn with
  | nil => rfl
  | append_singleton location last =>
    have hlast : last ≠ "" := (h last (by simp)).ne_empty
    rw [pathTo_concat, pathTo_concat]
    unfold Path.join
    rw [← List.cons_append, List.getLast?_concat, if_neg (by simpa using hlast)]
    rfl

theorem dropIdle_cons (h : IsName name) (above : List String) :
    Path.dropIdle (name :: above) = name :: above := by
  cases above with
  | nil =>
    unfold Path.dropIdle
    rw [if_pos (h.isComponent true)]
  | cons next above =>
    unfold Path.dropIdle
    rw [if_pos (h.isComponent false)]

/-- **Going up from a location's path is going up in the tree.** -/
theorem parent?_pathTo_concat (h : ∀ name ∈ location, IsName name) (hname : IsName name) :
    (pathTo (location ++ [name])).parent? = some (pathTo location) := by
  rw [pathTo_concat]
  unfold Path.parent?
  rw [List.reverse_cons, List.reverse_concat, List.cons_append, dropIdle_cons hname]
  induction location using List.reverseRecOn with
  | nil => rfl
  | append_singleton location last =>
    rw [pathTo_concat]
    dsimp only
    rw [List.reverse_concat, List.cons_append, dropIdle_cons (h last (by simp))]
    simp

theorem parent?_root : Path.root.parent? = none := by
  decide

/-- What the path of a location opens does not depend on the working directory. -/
theorem openAt_pathTo (wd location : List String) :
    tree.openAt wd (pathTo location) = tree.openAt [] (pathTo location) := by
  unfold openAt locate
  rw [isAbsolute_pathTo, if_pos rfl, if_pos rfl]

/-! ## Paths without a parent -/

theorem follow_idle (h : ∀ piece ∈ pieces, piece = "" ∨ piece = ".") :
    tree.follow links here pieces = .ok here := by
  induction pieces with
  | nil => rw [follow]
  | cons piece pieces ih =>
    obtain ⟨hpiece, hpieces⟩ := List.forall_mem_cons.mp h
    rw [follow_stays hpiece, ih hpieces]

/-- Nothing but idle pieces: an empty one in front, and empty ones or dots. -/
theorem exists_eq_concat_of_dropIdle (h : Path.dropIdle pieces = []) (hne : pieces ≠ []) :
    ∃ above, pieces = above ++ [""] ∧ ∀ piece ∈ above, piece = "" ∨ piece = "." := by
  fun_induction Path.dropIdle pieces with
  | case1 => exact absurd rfl hne
  | case2 piece hpiece => cases h
  | case3 piece hpiece =>
    have hempty : piece = "" := by simpa [Path.isComponent] using hpiece
    exact ⟨[], by rw [hempty, List.nil_append], by simp⟩
  | case4 piece above _ hpiece => cases h
  | case5 piece above hmore hpiece ih =>
    have hidle : piece = "" ∨ piece = "." := by
      by_contra hcontra
      rw [not_or] at hcontra
      simp [Path.isComponent, hcontra] at hpiece
    obtain ⟨rest, rfl, hrest⟩ := ih h hmore
    exact ⟨piece :: rest, rfl, List.forall_mem_cons.mpr ⟨hidle, hrest⟩⟩

theorem splitSlashes_ne_nil (text : List Char) : Path.splitSlashes text ≠ [] := by
  cases text with
  | nil => exact List.cons_ne_nil _ _
  | cons c text =>
    unfold Path.splitSlashes
    split
    · exact List.cons_ne_nil _ _
    · cases Path.splitSlashes text <;> exact List.cons_ne_nil _ _

theorem pieces_ofText_ne_nil (text : String) : (Path.ofText text).pieces ≠ [] := by
  intro h
  exact splitSlashes_ne_nil _ (List.map_eq_nil_iff.mp h)

/-- A text without a slash is a single piece. -/
theorem splitSlashes_eq_singleton {text piece : List Char}
    (h : Path.splitSlashes text = [piece]) : text = piece := by
  induction text generalizing piece with
  | nil => exact List.cons.inj h |>.1
  | cons c text ih =>
    unfold Path.splitSlashes at h
    split at h
    · exact absurd (List.cons.inj h).2 (splitSlashes_ne_nil text)
    · cases hsplit : Path.splitSlashes text with
      | nil => exact absurd hsplit (splitSlashes_ne_nil text)
      | cons first pieces =>
        rw [hsplit] at h
        obtain ⟨rfl, rfl⟩ := List.cons.inj h
        rw [ih hsplit]

theorem ofText_ne_empty {text : String} (h : text ≠ "") : Path.ofText text ≠ .empty := by
  intro hempty
  have hpieces : (Path.splitSlashes text.toList).map String.ofList = [""] :=
    congrArg Path.pieces hempty
  obtain ⟨piece, hsplit, hpiece⟩ := List.map_eq_singleton_iff.mp hpieces
  rw [← splitSlashes_eq_singleton hsplit, String.ofList_toList] at hpiece
  exact h hpiece

/-- **A path without a parent leads to the root**, unless it is empty. -/
theorem locate_of_parent?_eq_none (hpieces : p.pieces ≠ []) (hempty : p ≠ .empty)
    (h : p.parent? = none) (tree : FileTree) (wd : List String) : tree.locate wd p = .ok [] := by
  have hdrop : Path.dropIdle p.pieces.reverse = [] := by
    unfold Path.parent? at h
    split at h
    · assumption
    · split at h <;> cases h
  obtain ⟨above, habove, hidle⟩ := exists_eq_concat_of_dropIdle hdrop (by simpa using hpieces)
  rw [List.reverse_eq_iff, List.reverse_concat] at habove
  have hmore : above.reverse ≠ [] := by
    intro hnil
    rw [hnil] at habove
    exact hempty (congrArg Path.mk habove)
  have habsolute : p.isAbsolute = true := by
    obtain ⟨next, rest, hrest⟩ := List.exists_cons_of_ne_nil hmore
    unfold Path.isAbsolute
    rw [habove, hrest]
    rfl
  have hidle : ∀ piece ∈ p.pieces, piece = "" ∨ piece = "." := by
    rw [habove]
    exact List.forall_mem_cons.mpr ⟨.inl rfl, fun piece hmem => hidle piece (by simpa using hmem)⟩
  have hnul : p.hasNul = false := by
    refine List.any_eq_false.mpr fun piece hmem => ?_
    rcases hidle piece hmem with rfl | rfl <;> decide
  unfold locate
  rw [hnul, if_neg Bool.false_ne_true, if_neg hempty, if_pos habsolute]
  exact follow_idle hidle

end LoxTokenizer.FileTree
