import LoxTokenizer.Files.Tree

/-!
# The way along a path

A path that is followed looks at some locations of a tree, one after the other, and at no others.
What the tree has at these decides where the path leads.

* `FileTree.IsName`: what something in a directory may have as a name.
* `FileTree.Leads`: the locations looked at along the pieces of a path, and what is found.
* **`FileTree.openAt_congr`**: trees that agree along a path open the same with it.
* **`FileTree.OnWay.node?_cases`**: on the way to a location there are directories and links only.
* **`FileTree.isName_of_locate`**: a path leads to a location made of names.
-/

namespace LoxTokenizer.FileTree

/-- **A name** that something in a directory may have. -/
structure IsName (name : String) : Prop where
  ne_empty : name ≠ ""
  ne_dot : name ≠ "."
  ne_dots : name ≠ ".."

instance : DecidablePred IsName := fun name =>
  decidable_of_iff (name ≠ "" ∧ name ≠ "." ∧ name ≠ "..")
    ⟨fun h => ⟨h.1, h.2.1, h.2.2⟩, fun h => ⟨h.ne_empty, h.ne_dot, h.ne_dots⟩⟩

variable {tree tree' : FileTree} {links : Nat} {here location pieces rest wd : List String}
  {name : String} {p : Path} {way : List (List String)} {found : Except FileError (List String)}

theorem IsName.not_idle (h : IsName name) : ¬ (name = "" ∨ name = ".") :=
  fun hidle => hidle.elim h.ne_empty h.ne_dot

/-! ## The way along a path -/

/-- **The way along the pieces of a path** from a directory, through at most so many links: the
locations that are looked at, and what is found in the end. -/
inductive Leads (tree : FileTree) : Nat → List String → List String → List (List String) →
    Except FileError (List String) → Prop where
  | arrives {links : Nat} {here : List String} : Leads tree links here [] [here] (.ok here)
  /-- A piece that says nothing. -/
  | stays {links : Nat} {here rest : List String} {piece : String} {way : List (List String)}
      {found : Except FileError (List String)} (hidle : piece = "" ∨ piece = ".")
      (h : Leads tree links here rest way found) : Leads tree links here (piece :: rest) way found
  | up {links : Nat} {here rest : List String} {way : List (List String)}
      {found : Except FileError (List String)} (h : Leads tree links here.dropLast rest way found) :
      Leads tree links here (".." :: rest) way found
  /-- A name that is too long is looked at nowhere. -/
  | nameTooLong {links : Nat} {here rest : List String} {name : String} (hname : IsName name)
      (hsize : maxNameBytes < name.utf8ByteSize) :
      Leads tree links here (name :: rest) [] (.error .nameTooLong)
  | notFound {links : Nat} {here rest : List String} {name : String} (hname : IsName name)
      (hsize : name.utf8ByteSize ≤ maxNameBytes) (hnode : tree.node? (here ++ [name]) = none) :
      Leads tree links here (name :: rest) [here ++ [name]] (.error .notFound)
  | down {links : Nat} {here rest : List String} {name : String} {way : List (List String)}
      {found : Except FileError (List String)} (hname : IsName name)
      (hsize : name.utf8ByteSize ≤ maxNameBytes)
      (hnode : tree.node? (here ++ [name]) = some .directory)
      (h : Leads tree links (here ++ [name]) rest way found) :
      Leads tree links here (name :: rest) ((here ++ [name]) :: way) found
  | file {links : Nat} {here : List String} {name : String} {content : List UInt8}
      (hname : IsName name) (hsize : name.utf8ByteSize ≤ maxNameBytes)
      (hnode : tree.node? (here ++ [name]) = some (.file content)) :
      Leads tree links here [name] [here ++ [name]] (.ok (here ++ [name]))
  /-- Nothing is in a file, so not even a single dot may come behind it. -/
  | notDirectory {links : Nat} {here rest : List String} {name : String} {content : List UInt8}
      (hname : IsName name) (hsize : name.utf8ByteSize ≤ maxNameBytes)
      (hnode : tree.node? (here ++ [name]) = some (.file content)) (hrest : rest ≠ []) :
      Leads tree links here (name :: rest) [here ++ [name]] (.error .notDirectory)
  | tooManyLinks {here rest : List String} {name : String} {target : Path} (hname : IsName name)
      (hsize : name.utf8ByteSize ≤ maxNameBytes)
      (hnode : tree.node? (here ++ [name]) = some (.link target)) :
      Leads tree 0 here (name :: rest) [here ++ [name]] (.error .tooManyLinks)
  | link {links : Nat} {here rest : List String} {name : String} {target : Path}
      {way : List (List String)} {found : Except FileError (List String)} (hname : IsName name)
      (hsize : name.utf8ByteSize ≤ maxNameBytes)
      (hnode : tree.node? (here ++ [name]) = some (.link target))
      (h : Leads tree links (if target.isAbsolute then [] else here) (target.pieces ++ rest) way
        found) :
      Leads tree (links + 1) here (name :: rest) ((here ++ [name]) :: way) found

/-- **Following a path** goes its way. -/
theorem exists_leads (tree : FileTree) (links : Nat) (here pieces : List String) :
    ∃ way, Leads tree links here pieces way (tree.follow links here pieces) := by
  have isName {piece : String} (hidle : ¬ (piece = "" ∨ piece = ".")) (hup : piece ≠ "..") :
      IsName piece :=
    ⟨fun h => hidle (.inl h), fun h => hidle (.inr h), hup⟩
  fun_induction follow tree links here pieces with
  | case1 links here => exact ⟨_, .arrives⟩
  | case2 links here piece rest hidle ih =>
    obtain ⟨way, hway⟩ := ih
    exact ⟨way, .stays hidle hway⟩
  | case3 links here rest _ ih =>
    obtain ⟨way, hway⟩ := ih
    exact ⟨way, .up hway⟩
  | case4 links here piece rest hidle hup hsize =>
    exact ⟨_, .nameTooLong (isName hidle hup) hsize⟩
  | case5 links here piece rest hidle hup there hsize hnode =>
    exact ⟨_, .notFound (isName hidle hup) (Nat.not_lt.mp hsize) hnode⟩
  | case6 links here piece rest hidle hup there hsize hnode ih =>
    obtain ⟨way, hway⟩ := ih
    exact ⟨_, .down (isName hidle hup) (Nat.not_lt.mp hsize) hnode hway⟩
  | case7 links here piece rest hidle hup there hsize content hnode hlast =>
    obtain rfl := List.isEmpty_iff.mp hlast
    exact ⟨_, .file (isName hidle hup) (Nat.not_lt.mp hsize) hnode⟩
  | case8 links here piece rest hidle hup there hsize content hnode hlast =>
    exact ⟨_, .notDirectory (isName hidle hup) (Nat.not_lt.mp hsize) hnode fun h =>
      hlast (List.isEmpty_iff.mpr h)⟩
  | case9 here piece rest hidle hup there hsize target hnode =>
    exact ⟨_, .tooManyLinks (isName hidle hup) (Nat.not_lt.mp hsize) hnode⟩
  | case10 here piece rest hidle hup there hsize target hnode links ih =>
    obtain ⟨way, hway⟩ := ih
    exact ⟨_, .link (isName hidle hup) (Nat.not_lt.mp hsize) hnode hway⟩

theorem follow_stays (hidle : name = "" ∨ name = ".") (rest : List String) :
    tree.follow links here (name :: rest) = tree.follow links here rest := by
  rw [follow, if_pos hidle]

theorem follow_up (rest : List String) :
    tree.follow links here (".." :: rest) = tree.follow links here.dropLast rest := by
  rw [follow, if_neg (by decide), if_pos rfl]

theorem follow_nameTooLong (hname : IsName name) (hsize : maxNameBytes < name.utf8ByteSize)
    (rest : List String) : tree.follow links here (name :: rest) = .error .nameTooLong := by
  rw [follow, if_neg hname.not_idle, if_neg hname.ne_dots, if_pos hsize]

theorem follow_name (hname : IsName name) (hsize : name.utf8ByteSize ≤ maxNameBytes)
    (rest : List String) : tree.follow links here (name :: rest) =
      match tree.node? (here ++ [name]) with
      | none => .error .notFound
      | some .directory => tree.follow links (here ++ [name]) rest
      | some (.file _) => if rest.isEmpty then .ok (here ++ [name]) else .error .notDirectory
      | some (.link target) =>
        match links with
        | 0 => .error .tooManyLinks
        | links + 1 =>
          tree.follow links (if target.isAbsolute then [] else here) (target.pieces ++ rest) := by
  rw [follow, if_neg hname.not_idle, if_neg hname.ne_dots]
  exact if_neg (Nat.not_lt.mpr hsize)

namespace Leads

/-- **Trees that agree on the way** have the same found. -/
theorem follow_eq_of_agree (h : Leads tree links here pieces way found)
    (hagree : ∀ location ∈ way, tree'.node? location = tree.node? location) :
    tree'.follow links here pieces = found := by
  induction h with
  | arrives => rw [follow]
  | stays hidle _ ih => rw [follow_stays hidle, ih hagree]
  | up _ ih => rw [follow_up, ih hagree]
  | nameTooLong hname hsize => exact follow_nameTooLong hname hsize _
  | notFound hname hsize hnode =>
    rw [follow_name hname hsize, hagree _ (by simp), hnode]
  | down hname hsize hnode _ ih =>
    rw [follow_name hname hsize, hagree _ (by simp), hnode]
    exact ih fun location hmem => hagree _ (by simp [hmem])
  | file hname hsize hnode =>
    rw [follow_name hname hsize, hagree _ (by simp), hnode]
    rfl
  | notDirectory hname hsize hnode hrest =>
    rw [follow_name hname hsize, hagree _ (by simp), hnode]
    exact if_neg fun h => hrest (List.isEmpty_iff.mp h)
  | tooManyLinks hname hsize hnode =>
    rw [follow_name hname hsize, hagree _ (by simp), hnode]
  | link hname hsize hnode _ ih =>
    rw [follow_name hname hsize, hagree _ (by simp), hnode]
    exact ih fun location hmem => hagree _ (by simp [hmem])

theorem follow_eq (h : Leads tree links here pieces way found) :
    tree.follow links here pieces = found :=
  h.follow_eq_of_agree fun _ _ => rfl

theorem mem_way (h : Leads tree links here pieces way found) (hfound : found = .ok location) :
    location ∈ way := by
  induction h with
  | arrives =>
    obtain rfl := Except.ok.inj hfound
    exact List.mem_singleton_self _
  | file _ _ _ =>
    obtain rfl := Except.ok.inj hfound
    exact List.mem_singleton_self _
  | stays _ _ ih | up _ ih => exact ih hfound
  | down _ _ _ _ ih | link _ _ _ _ ih => exact List.mem_cons_of_mem _ (ih hfound)
  | nameTooLong _ _ | notFound _ _ _ | notDirectory _ _ _ _ | tooManyLinks _ _ _ => cases hfound

/-- **A path is followed along names**, so it leads to a location made of them. -/
theorem isName (h : Leads tree links here pieces way found) (hfound : found = .ok location)
    (hhere : ∀ name ∈ here, IsName name) : ∀ name ∈ location, IsName name := by
  have concat {here : List String} {last : String} (hhere : ∀ name ∈ here, IsName name)
      (hlast : IsName last) : ∀ name ∈ here ++ [last], IsName name := by
    intro name hmem
    rcases List.mem_append.mp hmem with hmem | hmem
    · exact hhere name hmem
    · obtain rfl := List.mem_singleton.mp hmem
      exact hlast
  induction h with
  | arrives =>
    obtain rfl := Except.ok.inj hfound
    exact hhere
  | stays _ _ ih => exact ih hfound hhere
  | up _ ih => exact ih hfound fun name hmem => hhere name (List.dropLast_subset _ hmem)
  | down hname _ _ _ ih => exact ih hfound (concat hhere hname)
  | file hname _ _ =>
    obtain rfl := Except.ok.inj hfound
    exact concat hhere hname
  | link _ _ _ _ ih =>
    refine ih hfound ?_
    split
    · exact fun name hmem => by cases hmem
    · exact hhere
  | nameTooLong _ _ | notFound _ _ _ | notDirectory _ _ _ _ | tooManyLinks _ _ _ => cases hfound

/-- On the way to something there is nothing else but directories and links. -/
theorem node?_cases (h : Leads tree links here pieces way found) (hfound : found = .ok location)
    {passed : List String} (hpassed : passed ∈ way) : passed = location ∨
      tree.node? passed = some .directory ∨ ∃ target, tree.node? passed = some (.link target) := by
  induction h with
  | arrives =>
    obtain rfl := Except.ok.inj hfound
    exact .inl (List.mem_singleton.mp hpassed)
  | stays _ _ ih | up _ ih => exact ih hfound hpassed
  | down _ _ hnode _ ih =>
    rcases List.mem_cons.mp hpassed with rfl | hpassed
    · exact .inr (.inl hnode)
    · exact ih hfound hpassed
  | file _ _ _ =>
    obtain rfl := Except.ok.inj hfound
    exact .inl (List.mem_singleton.mp hpassed)
  | link _ _ hnode _ ih =>
    rcases List.mem_cons.mp hpassed with rfl | hpassed
    · exact .inr (.inr ⟨_, hnode⟩)
    · exact ih hfound hpassed
  | nameTooLong _ _ | notFound _ _ _ | notDirectory _ _ _ _ | tooManyLinks _ _ _ => cases hfound

end Leads

/-! ## Where a path leads -/

/-- **On the way along a path** from a working directory: a location that is looked at, be it a
directory or a link in between, or the location in the end. -/
def OnWay (tree : FileTree) (wd : List String) (p : Path) (location : List String) : Prop :=
  ∃ way found, Leads tree maxLinks (if p.isAbsolute then [] else wd) p.pieces way found ∧
    location ∈ way

theorem exists_leads_of_locate (h : tree.locate wd p = .ok location) : ∃ way,
    Leads tree maxLinks (if p.isAbsolute then [] else wd) p.pieces way (.ok location) := by
  obtain ⟨way, hway⟩ := exists_leads tree maxLinks (if p.isAbsolute then [] else wd) p.pieces
  unfold locate at h
  split at h
  · cases h
  · split at h
    · cases h
    · rw [h] at hway
      exact ⟨way, hway⟩

theorem isName_of_locate (hwd : ∀ name ∈ wd, IsName name) (h : tree.locate wd p = .ok location) :
    ∀ name ∈ location, IsName name := by
  obtain ⟨way, hway⟩ := exists_leads_of_locate h
  refine hway.isName rfl ?_
  split
  · exact fun name hmem => by cases hmem
  · exact hwd

theorem locate_congr (h : ∀ location, tree.OnWay wd p location →
    tree'.node? location = tree.node? location) : tree'.locate wd p = tree.locate wd p := by
  obtain ⟨way, hway⟩ := exists_leads tree maxLinks (if p.isAbsolute then [] else wd) p.pieces
  have hfollow := hway.follow_eq_of_agree fun location hmem => h location ⟨way, _, hway, hmem⟩
  unfold locate
  rw [hfollow]

theorem openAt_of_size (h : p.text.utf8ByteSize ≤ maxPathBytes) :
    tree.openAt wd p = (tree.locate wd p).map tree.nodeAt := by
  unfold openAt
  rw [if_neg (by simp [h])]

/-- **Trees that agree along a path** open the same with it. -/
theorem openAt_congr (h : ∀ location, tree.OnWay wd p location →
    tree'.node? location = tree.node? location) : tree'.openAt wd p = tree.openAt wd p := by
  unfold openAt
  rw [locate_congr h]
  cases hlocate : tree.locate wd p with
  | error e => rfl
  | ok location =>
    obtain ⟨way, hway⟩ := exists_leads_of_locate hlocate
    have hnode := h location ⟨way, _, hway, hway.mem_way rfl⟩
    have hat : tree'.nodeAt location = tree.nodeAt location := by
      unfold nodeAt
      rw [hnode]
    simp only [Except.map, hat]

/-- **On the way to a regular file** there is no other one, and nothing is missing. -/
theorem OnWay.node?_cases {passed : List String} (h : tree.OnWay wd p passed)
    (hlocate : tree.locate wd p = .ok location) : passed = location ∨
      tree.node? passed = some .directory ∨ ∃ target, tree.node? passed = some (.link target) := by
  obtain ⟨way, found, hway, hmem⟩ := h
  obtain ⟨way', hway'⟩ := exists_leads_of_locate hlocate
  exact hway.node?_cases (hway.follow_eq.symm.trans hway'.follow_eq) hmem

end LoxTokenizer.FileTree
