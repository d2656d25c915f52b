import LoxTokenizer.Files.Path
import Mathlib.Data.List.DropRight
import Mathlib.Tactic.Common

/-!
# Going up a path

A path is gone up one component at a time, as it is written. What is a component is told here by the
pieces alone: the front piece is one unless it is empty, and any other piece is one unless it is
empty or a single dot. So two dots and a dot at the front are components, and slashes that are
repeated or stand at the end make none.

* `Path.components`: the components of a path, from the front.
* **`Path.components_of_parent?`**: a parent has all components but the last.
  **`Path.parent?_eq_none_iff`**: a path without a parent has none.
* `Path.climb n`: the path after going up `n` times.
* **`Path.exists_climb_iff`**: a path can be gone up as often as it has components.
* `Path.text_of_components_eq_nil`: a relative path without components is the empty one.
-/

namespace LoxTokenizer.Path

variable {p q : Path} {pieces above : List String} {last piece : String} {n : ℕ}

/-! ## Components -/

/-- The components among the pieces of a path. -/
def componentsOf : List String → List String
  | [] => []
  | front :: rest =>
    (if front = "" then [] else [front]) ++ rest.filter fun piece => piece ≠ "" ∧ piece ≠ "."

/-- **The components of a path**, from the front. -/
def components (p : Path) : List String :=
  componentsOf p.pieces

theorem componentsOf_singleton (h : isComponent true piece = true) :
    componentsOf [piece] = [piece] := by
  have hne : piece ≠ "" := by simpa [isComponent] using h
  simp [componentsOf, hne]

theorem componentsOf_singleton_idle (h : ¬ isComponent true piece = true) :
    componentsOf [piece] = [] := by
  have heq : piece = "" := by simpa [isComponent] using h
  simp [componentsOf, heq]

theorem componentsOf_concat (hne : pieces ≠ []) (h : isComponent false piece = true) :
    componentsOf (pieces ++ [piece]) = componentsOf pieces ++ [piece] := by
  obtain ⟨front, rest, rfl⟩ := List.exists_cons_of_ne_nil hne
  have hpiece : piece ≠ "" ∧ piece ≠ "." := by simpa [isComponent] using h
  simp [componentsOf, hpiece]

theorem componentsOf_concat_idle (hne : pieces ≠ []) (h : ¬ isComponent false piece = true) :
    componentsOf (pieces ++ [piece]) = componentsOf pieces := by
  obtain ⟨front, rest, rfl⟩ := List.exists_cons_of_ne_nil hne
  have hpiece : ¬ (piece ≠ "" ∧ piece ≠ ".") := by simpa [isComponent] using h
  simp only [componentsOf, List.cons_append, List.filter_append, List.filter_singleton]
  simp [hpiece]

/-- Idle pieces at the end are no components. -/
theorem componentsOf_dropIdle (pieces : List String) :
    componentsOf (dropIdle pieces).reverse = componentsOf pieces.reverse := by
  fun_induction dropIdle pieces with
  | case1 => rfl
  | case2 => rfl
  | case3 piece h => exact (componentsOf_singleton_idle h).symm
  | case4 => rfl
  | case5 piece above hmore h ih =>
    rw [List.reverse_cons, componentsOf_concat_idle (by simpa using hmore) h, ih]

/-- What is not dropped ends with the last component. -/
theorem componentsOf_of_dropIdle_cons (h : dropIdle pieces = last :: above) :
    componentsOf pieces.reverse = componentsOf above.reverse ++ [last] := by
  fun_induction dropIdle pieces with
  | case1 => cases h
  | case2 piece hpiece =>
    cases h
    exact componentsOf_singleton hpiece
  | case3 => cases h
  | case4 piece rest hmore hpiece =>
    cases h
    rw [List.reverse_cons, componentsOf_concat (by simpa using hmore) hpiece]
  | case5 piece rest hmore hpiece ih =>
    rw [List.reverse_cons, componentsOf_concat_idle (by simpa using hmore) hpiece, ih h]

theorem componentsOf_of_dropIdle_nil (h : dropIdle pieces = []) :
    componentsOf pieces.reverse = [] := by
  rw [← componentsOf_dropIdle, h]
  rfl

theorem components_eq (p : Path) : p.components = componentsOf p.pieces.reverse.reverse := by
  rw [List.reverse_reverse]
  rfl

/-- **A parent has all components but the last.** -/
theorem components_of_parent? (h : p.parent? = some q) :
    ∃ last, p.components = q.components ++ [last] := by
  unfold parent? at h
  split at h
  · cases h
  · rename_i last above hdrop
    refine ⟨last, ?_⟩
    rw [components_eq, componentsOf_of_dropIdle_cons hdrop]
    split at h
    · rename_i hnil
      obtain rfl := Option.some.inj h
      rw [componentsOf_of_dropIdle_nil hnil]
      split <;> rfl
    · obtain rfl := Option.some.inj h
      exact congrArg (· ++ [last]) (componentsOf_dropIdle above).symm

/-- **A path without a parent** has no components. -/
theorem parent?_eq_none_iff : p.parent? = none ↔ p.components = [] := by
  constructor
  · intro h
    have hdrop : dropIdle p.pieces.reverse = [] := by
      unfold parent? at h
      split at h
      · assumption
      · split at h <;> cases h
    rw [components_eq, componentsOf_of_dropIdle_nil hdrop]
  · intro h
    cases hparent : p.parent? with
    | none => rfl
    | some q =>
      obtain ⟨last, hlast⟩ := components_of_parent? hparent
      rw [h] at hlast
      exact absurd hlast (by simp)

/-! ## Absolute and relative paths -/

/-- What is kept starts with a component. -/
theorem ne_empty_of_dropIdle_cons (h : dropIdle pieces = last :: above) : last ≠ "" := by
  fun_induction dropIdle pieces with
  | case1 => cases h
  | case2 piece hpiece =>
    cases h
    simpa [isComponent] using hpiece
  | case3 => cases h
  | case4 piece rest hmore hpiece =>
    cases h
    exact (by simpa [isComponent] using hpiece : last ≠ "" ∧ last ≠ ".").1
  | case5 piece rest hmore hpiece ih => exact ih h

theorem dropIdle_suffix (pieces : List String) : dropIdle pieces <:+ pieces := by
  fun_induction dropIdle pieces with
  | case1 => exact List.suffix_refl _
  | case2 => exact List.suffix_refl _
  | case3 => exact List.nil_suffix
  | case4 => exact List.suffix_refl _
  | case5 piece above hmore h ih => exact ih.trans (List.suffix_cons _ _)

/-- A path is absolute by its front, as long as there is more behind it. -/
theorem isAbsolute_cons {front : String} {rest : List String} (h : front = "" → rest ≠ []) :
    isAbsolute ⟨front :: rest⟩ = true ↔ front = "" := by
  unfold isAbsolute
  dsimp only
  split
  · rename_i heq
    exact iff_of_true rfl (List.cons.inj heq).1
  · rename_i hno
    refine iff_of_false Bool.false_ne_true fun hfront => ?_
    obtain ⟨next, behind, rfl⟩ := List.exists_cons_of_ne_nil (h hfront)
    exact hno next behind (by rw [hfront])

/-- **Going up keeps a path absolute, or relative.** -/
theorem isAbsolute_parent? (h : p.parent? = some q) : q.isAbsolute = p.isAbsolute := by
  unfold parent? at h
  split at h
  · cases h
  · rename_i last above hdrop
    split at h
    · obtain rfl := Option.some.inj h
      cases p.isAbsolute <;> rfl
    · rename_i kept hkept
      obtain rfl := Option.some.inj h
      obtain ⟨front, rest, hfront⟩ := List.exists_cons_of_ne_nil
        (show (dropIdle above).reverse ≠ [] by simpa using hkept)
      have hsuffix : dropIdle above <:+ p.pieces.reverse :=
        ((dropIdle_suffix above).trans (List.suffix_cons last above)).trans
          (hdrop ▸ dropIdle_suffix p.pieces.reverse)
      obtain ⟨extra, hextra⟩ := List.reverse_prefix.mpr hsuffix
      rw [hfront, List.reverse_reverse] at hextra
      rw [hfront]
      have hmore : front = "" → rest ≠ [] := by
        rintro rfl rfl
        exact ne_empty_of_dropIdle_cons (List.reverse_eq_iff.mp hfront) rfl
      have hpieces : p = ⟨front :: (rest ++ extra)⟩ := congrArg mk hextra.symm
      have hmore' : front = "" → rest ++ extra ≠ [] := fun h =>
        List.append_ne_nil_of_left_ne_nil (hmore h) extra
      rw [Bool.eq_iff_iff, isAbsolute_cons hmore, hpieces, isAbsolute_cons hmore']

/-! ## Going up -/

/-- The path after going up some times. -/
def climb : ℕ → Path → Option Path
  | 0, p => some p
  | n + 1, p => p.parent?.bind (climb n)

/-- Each time the last component goes. -/
theorem components_of_climb (h : climb n p = some q) :
    n ≤ p.components.length ∧ q.components = p.components.take (p.components.length - n) := by
  induction n generalizing p with
  | zero =>
    cases h
    exact ⟨Nat.zero_le _, by simp⟩
  | succ n ih =>
    obtain ⟨above, hparent, habove⟩ := Option.bind_eq_some_iff.mp h
    obtain ⟨last, hlast⟩ := components_of_parent? hparent
    obtain ⟨hle, heq⟩ := ih habove
    rw [hlast, List.length_append, List.length_singleton]
    refine ⟨Nat.succ_le_succ hle, ?_⟩
    rw [heq, Nat.add_sub_add_right, List.take_append_of_le_length (Nat.sub_le _ _)]

theorem isAbsolute_of_climb (h : climb n p = some q) : q.isAbsolute = p.isAbsolute := by
  induction n generalizing p with
  | zero =>
    cases h
    rfl
  | succ n ih =>
    obtain ⟨above, hparent, habove⟩ := Option.bind_eq_some_iff.mp h
    rw [ih habove, isAbsolute_parent? hparent]

/-- **A path can be gone up as often as it has components.** -/
theorem exists_climb_iff : (∃ q, climb n p = some q) ↔ n ≤ p.components.length := by
  refine ⟨fun ⟨q, h⟩ => (components_of_climb h).1, fun h => ?_⟩
  induction n generalizing p with
  | zero => exact ⟨p, rfl⟩
  | succ n ih =>
    cases hparent : p.parent? with
    | none =>
      rw [parent?_eq_none_iff.mp hparent] at h
      exact absurd h (Nat.not_succ_le_zero n)
    | some above =>
      obtain ⟨last, hlast⟩ := components_of_parent? hparent
      rw [hlast, List.length_append, List.length_singleton] at h
      obtain ⟨q, hq⟩ := ih (Nat.le_of_succ_le_succ h)
      refine ⟨q, ?_⟩
      unfold climb
      rw [hparent]
      exact hq

/-- A relative path without components is the empty one. -/
theorem text_of_components_eq_nil (h : p.components = []) (hrelative : p.isAbsolute = false) :
    p.text = "" := by
  obtain ⟨pieces⟩ := p
  cases pieces with
  | nil => rfl
  | cons front rest =>
    have hfront : front = "" := by
      by_contra hne
      simp [components, componentsOf, hne] at h
    subst hfront
    cases rest with
    | nil => rfl
    | cons next rest => cases hrelative

/-- Repeated slashes and idle dots are gone over, leading and double dots are not. -/
example : climb 2 (ofText "./a//./../b/") = some (ofText "./a") := by
  decide +kernel

end LoxTokenizer.Path
