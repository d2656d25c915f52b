import LoxTokenizer.Proofs.Manifest.Search
import LoxTokenizer.Proofs.Program.ExitStatus
import LoxTokenizer.Proofs.Program.FileArgument

/-!
# What governs a run

The settings of a run are those of one manifest, or of the defaults, with the flags over them. Here
it is told for every tree and every working directory which manifest that is. The manifest that is
named with the flags is it, whatever else there is. If none is named, a manifest is searched for
from the directory that holds the file, and without a file from the working directory, and the
nearest one is it, even if it is broken.

* `Settings.Governs`: the manifest that governs a run, case by case. **`Settings.governs_iff`**: it
  is the one that the program comes to.
* `Settings.GoesBy`: settings that go by a manifest and the flags over it.
* `Settings.LoadsBy`: the settings or the error that the governing path gives.
* `FileTree.Spares`: a change of a tree away from what is on the way along a path.
* **`load_governed`**: what governs a run, and the settings that it gives.
-/

namespace LoxTokenizer

open FileTree (IsName pathTo)

variable {tree tree' : FileTree} {wd : List String} {flags : Flags} {result : Option Path}
  {manifest : Manifest} {settings : Settings} {disk : Disk} {p : Path}

/-! ## The manifest that governs a run -/

namespace Settings

/-- **What governs a run**: the manifest at a path, or else the defaults. -/
inductive Governs (tree : FileTree) (wd : List String) (flags : Flags) : Option Path → Prop where
  /-- The manifest that is named, be it there or not. -/
  | named {p : Path} (hconfig : flags.config = some p) : Governs tree wd flags (some p)
  /-- The nearest manifest to what holds the file, once all links are taken out. -/
  | ofFile {file : Path} {dir : List String} {name : String} {result : Option Path}
      (hconfig : flags.config = none) (hfile : flags.file = some file)
      (hlocate : tree.locate wd file = .ok (dir ++ [name])) (h : tree.Nearest dir result) :
      Governs tree wd flags result
  /-- For a file that is missing, what a search up its path finds, as the path is written. -/
  | ofMissing {file above : Path} {cause : FileError} {result : Option Path}
      (hconfig : flags.config = none) (hfile : flags.file = some file)
      (hlocate : tree.locate wd file = .error cause) (hparent : file.parent? = some above)
      (h : Manifest.Finds (tree.disk wd) above result) : Governs tree wd flags result
  /-- Nothing holds the root, so for this file it is the working directory's own manifest. The
  directories above are not searched. -/
  | ofRoot {file : Path} {result : Option Path} (hconfig : flags.config = none)
      (hfile : flags.file = some file) (hlocate : tree.locate wd file = .ok [])
      (h : tree.Own wd result) : Governs tree wd flags result
  /-- Without a file, the nearest manifest to the working directory. -/
  | ofPrompt {result : Option Path} (hconfig : flags.config = none) (hfile : flags.file = none)
      (h : tree.Nearest wd result) : Governs tree wd flags result

theorem manifestPath?_of_config (h : flags.config = some p) :
    manifestPath? disk flags = some p := by
  unfold manifestPath?
  rw [h]

theorem manifestPath?_of_no_config (h : flags.config = none) :
    manifestPath? disk flags = Manifest.find? disk (searchStart disk flags.file) := by
  unfold manifestPath?
  rw [h]

/-! The search starts in the directory that holds the file. -/

variable {file above : Path} {dir : List String} {name : String} {cause : FileError}

theorem searchStart_of_locate (hnames : ∀ part ∈ dir ++ [name], IsName part)
    (h : tree.locate wd file = .ok (dir ++ [name])) :
    searchStart (tree.disk wd) (some file) = pathTo dir := by
  obtain ⟨hdir, hname⟩ := List.forall_mem_append.mp hnames
  have hcanonical : (tree.disk wd).canonical? file = some (pathTo (dir ++ [name])) := by
    unfold FileTree.disk
    simp only [h]
    rfl
  unfold searchStart directoryOf
  dsimp only
  rw [hcanonical, Option.getD_some,
    FileTree.parent?_pathTo_concat hdir (List.forall_mem_singleton.mp hname), Option.getD_some]

theorem searchStart_of_root (h : tree.locate wd file = .ok []) :
    searchStart (tree.disk wd) (some file) = .ofText "." := by
  have hcanonical : (tree.disk wd).canonical? file = some .root := by
    unfold FileTree.disk
    simp only [h]
    rfl
  unfold searchStart directoryOf
  dsimp only
  rw [hcanonical, Option.getD_some, FileTree.parent?_root, Option.getD_none]

theorem searchStart_of_missing (h : tree.locate wd file = .error cause)
    (hparent : file.parent? = some above) :
    searchStart (tree.disk wd) (some file) = above := by
  have hcanonical : (tree.disk wd).canonical? file = none := by
    unfold FileTree.disk
    simp only [h]
    rfl
  unfold searchStart directoryOf
  dsimp only
  rw [hcanonical, Option.getD_none, hparent, Option.getD_some]

/-- A file that is missing has a parent, as its path is written, since the root is never missing. -/
theorem exists_parent_of_missing (hnamed : flags.NamesFile) (hfile : flags.file = some file)
    (h : tree.locate wd file = .error cause) : ∃ above, file.parent? = some above := by
  obtain ⟨text, htext, rfl⟩ := hnamed file hfile
  cases hparent : (Path.ofText text).parent? with
  | some above => exact ⟨above, rfl⟩
  | none =>
    rw [FileTree.locate_of_parent?_eq_none (FileTree.pieces_ofText_ne_nil text)
      (FileTree.ofText_ne_empty htext) hparent] at h
    cases h

theorem governs_manifestPath? (hwd : ∀ name ∈ wd, IsName name) (hnamed : flags.NamesFile) :
    Governs tree wd flags (manifestPath? (tree.disk wd) flags) := by
  cases hconfig : flags.config with
  | some p =>
    rw [manifestPath?_of_config hconfig]
    exact .named hconfig
  | none =>
    rw [manifestPath?_of_no_config hconfig]
    cases hfile : flags.file with
    | none =>
      exact .ofPrompt hconfig hfile
        ((FileTree.finds_pathTo_iff hwd).mp (Manifest.finds_find? _ _))
    | some file =>
      cases hlocate : tree.locate wd file with
      | error cause =>
        obtain ⟨above, hparent⟩ := exists_parent_of_missing hnamed hfile hlocate
        rw [searchStart_of_missing hlocate hparent]
        exact .ofMissing hconfig hfile hlocate hparent (Manifest.finds_find? _ above)
      | ok location =>
        have hnames := FileTree.isName_of_locate hwd hlocate
        cases location using List.reverseRecOn with
        | nil =>
          rw [searchStart_of_root hlocate]
          exact .ofRoot hconfig hfile hlocate (FileTree.finds_dot_iff.mp (Manifest.finds_find? _ _))
        | append_singleton dir name =>
          rw [searchStart_of_locate hnames hlocate]
          have hdir := (List.forall_mem_append.mp hnames).1
          exact .ofFile hconfig hfile hlocate
            ((FileTree.finds_pathTo_iff hdir).mp (Manifest.finds_find? _ _))

/-- **What governs a run is what the program comes to.** -/
theorem governs_iff (hwd : ∀ name ∈ wd, IsName name) (hnamed : flags.NamesFile) :
    Governs tree wd flags result ↔ manifestPath? (tree.disk wd) flags = result := by
  constructor
  · intro h
    cases h with
    | named hconfig => exact manifestPath?_of_config hconfig
    | ofFile hconfig hfile hlocate h =>
      have hnames := FileTree.isName_of_locate hwd hlocate
      rw [manifestPath?_of_no_config hconfig, hfile, searchStart_of_locate hnames hlocate]
      have hdir := (List.forall_mem_append.mp hnames).1
      exact Manifest.finds_iff.mp ((FileTree.finds_pathTo_iff hdir).mpr h)
    | ofMissing hconfig hfile hlocate hparent h =>
      rw [manifestPath?_of_no_config hconfig, hfile, searchStart_of_missing hlocate hparent]
      exact Manifest.finds_iff.mp h
    | ofRoot hconfig hfile hlocate h =>
      rw [manifestPath?_of_no_config hconfig, hfile, searchStart_of_root hlocate]
      exact Manifest.finds_iff.mp (FileTree.finds_dot_iff.mpr h)
    | ofPrompt hconfig hfile h =>
      rw [manifestPath?_of_no_config hconfig, hfile]
      exact Manifest.finds_iff.mp ((FileTree.finds_pathTo_iff hwd).mpr h)
  · rintro rfl
    exact governs_manifestPath? hwd hnamed

/-! ## The settings that a manifest gives -/

/-- **Settings that go by a manifest and the flags over it.** -/
structure GoesBy (settings : Settings) (manifest : Manifest) (flags : Flags) : Prop where
  /-- The format of the flags, if they ask for one, and else that of the manifest. -/
  format_of_some : ∀ format, flags.format = some format → settings.format = format
  format_of_none : flags.format = none → settings.format = manifest.format
  trivia_iff : settings.trivia = true ↔ manifest.trivia = true ∧ flags.noTrivia = false
  eof_iff : settings.eof = true ↔ manifest.eof = true ∨ flags.eof = true
  prompt : settings.prompt = manifest.prompt
  quiet : settings.quiet = flags.quiet

theorem goesBy_merge (manifest : Manifest) (flags : Flags) :
    (merge manifest flags).GoesBy manifest flags where
  format_of_some format h := by
    unfold merge
    rw [h]
    rfl
  format_of_none h := by
    unfold merge
    rw [h]
    rfl
  trivia_iff := by simp [merge]
  eof_iff := by simp [merge]
  prompt := rfl
  quiet := rfl

/-- No other settings go by them. -/
theorem goesBy_iff : settings.GoesBy manifest flags ↔ merge manifest flags = settings := by
  constructor
  · intro h
    have hmerge := goesBy_merge manifest flags
    have hformat : (merge manifest flags).format = settings.format := by
      cases hflag : flags.format with
      | none => rw [h.format_of_none hflag, hmerge.format_of_none hflag]
      | some format => rw [h.format_of_some format hflag, hmerge.format_of_some format hflag]
    have htrivia : (merge manifest flags).trivia = settings.trivia :=
      Bool.eq_iff_iff.mpr (hmerge.trivia_iff.trans h.trivia_iff.symm)
    have heof : (merge manifest flags).eof = settings.eof :=
      Bool.eq_iff_iff.mpr (hmerge.eof_iff.trans h.eof_iff.symm)
    obtain ⟨format, trivia, eof, prompt, quiet⟩ := settings
    rw [merge, Settings.mk.injEq]
    exact ⟨hformat, htrivia, heof, h.prompt.symm, h.quiet.symm⟩
  · rintro rfl
    exact goesBy_merge manifest flags

end Settings

/-- **What a path gives**: the manifest that it leads to. No path gives the defaults. -/
inductive Manifest.Gives (disk : Disk) : Option Path → Manifest → Prop where
  | ofPath {p : Path} {manifest : Manifest} (h : load disk p = .ok manifest) :
      Gives disk (some p) manifest
  | default : Gives disk none .default

/-- **A change of a tree that spares a path**: what is on the way along it stays as it is. -/
def FileTree.Spares (tree tree' : FileTree) (wd : List String) (p : Path) : Prop :=
  ∀ location, tree.OnWay wd p location → tree'.node? location = tree.node? location

/-- **A change of other files** than the one at a location: what is there stays as it is, and so do
directories and links. Any other file may change or go away, and anything may come where nothing
is. -/
structure FileTree.ChangesOthers (tree tree' : FileTree) (target : List String) : Prop where
  target : tree'.node? target = tree.node? target
  directory : ∀ location, tree.node? location = some .directory →
    tree'.node? location = some .directory
  link : ∀ location next, tree.node? location = some (.link next) →
    tree'.node? location = some (.link next)

/-- A change of other files than the one that a path leads to spares the path. -/
theorem FileTree.ChangesOthers.spares {target : List String} (h : tree.ChangesOthers tree' target)
    (hlocate : tree.locate wd p = .ok target) : tree.Spares tree' wd p := by
  intro location hway
  rcases hway.node?_cases hlocate with rfl | hnode | ⟨next, hnode⟩
  · exact h.target
  · rw [hnode, h.directory location hnode]
  · rw [hnode, h.link location next hnode]

namespace Settings

/-- **The settings that the governing path gives**: those that go by its manifest, and an error if
that is broken. -/
structure LoadsBy (tree : FileTree) (wd : List String) (flags : Flags) (result : Option Path) :
    Prop where
  ok_iff : ∀ settings, load (tree.disk wd) flags = .ok settings ↔
    ∃ manifest, Manifest.Gives (tree.disk wd) result manifest ∧ settings.GoesBy manifest flags
  /-- The error is that of the manifest which governs the run. -/
  error_iff : ∀ e, load (tree.disk wd) flags = .error e ↔
    ∃ p, result = some p ∧ Manifest.load (tree.disk wd) p = .error e
  /-- A manifest that cannot be read, or is none, is always an error. -/
  broken_iff : (∃ e, load (tree.disk wd) flags = .error e) ↔
    ∃ p, result = some p ∧ Manifest.Broken (tree.disk wd) p

/-- What the governing path gives is what the program reads. -/
theorem gives_manifestPath?_iff : Manifest.Gives disk (manifestPath? disk flags) manifest ↔
    governingManifest disk flags = .ok manifest := by
  cases hpath : manifestPath? disk flags with
  | none =>
    rw [governingManifest_of_none hpath]
    constructor
    · rintro ⟨⟩
      rfl
    · intro h
      rw [← Except.ok.inj h]
      exact .default
  | some p =>
    rw [governingManifest_of_some hpath]
    constructor
    · rintro ⟨h⟩
      exact h
    · exact .ofPath

theorem loadsBy_manifestPath? (tree : FileTree) (wd : List String) (flags : Flags) :
    LoadsBy tree wd flags (manifestPath? (tree.disk wd) flags) where
  ok_iff settings := by
    simp only [gives_manifestPath?_iff, goesBy_iff, load]
    cases governingManifest (tree.disk wd) flags <;> simp [Except.map]
  error_iff e := by
    unfold load
    cases hpath : manifestPath? (tree.disk wd) flags with
    | none =>
      rw [governingManifest_of_none hpath]
      simp [Except.map]
    | some p =>
      rw [governingManifest_of_some hpath]
      cases hload : Manifest.load (tree.disk wd) p <;> simp [hload, Except.map]
  broken_iff := exists_load_error_iff

/-- Of a tree, only what is on the way to a manifest that is named matters to the settings. -/
theorem load_of_spares (hconfig : flags.config = some p) (h : tree.Spares tree' wd p) :
    load (tree'.disk wd) flags = load (tree.disk wd) flags := by
  have hpath {disk : Disk} : manifestPath? disk flags = some p := manifestPath?_of_config hconfig
  refine load_congr ⟨hpath.trans hpath.symm, fun q hq => ?_⟩
  obtain rfl := Option.some.inj (hpath.symm.trans hq)
  unfold FileTree.disk
  dsimp only
  rw [FileTree.openAt_congr h]

/-- A manifest that is named and is not there is an error of the run. -/
theorem load_of_locate_error {cause : FileError} (hconfig : flags.config = some p)
    (hsize : p.text.utf8ByteSize ≤ FileTree.maxPathBytes) (h : tree.locate wd p = .error cause) :
    load (tree.disk wd) flags = .error (.unreadable cause) := by
  have hread : (tree.disk wd).read p = .error cause := by
    unfold FileTree.disk
    dsimp only
    rw [FileTree.openAt_of_size hsize, h]
    rfl
  unfold load
  rw [governingManifest_of_some (manifestPath?_of_config hconfig)]
  unfold Manifest.load Disk.readText
  rw [hread]
  rfl

end Settings

/-- **What governs a run**, for every tree, every working directory and all arguments that are read:
there is one answer, and it gives the settings. A manifest that is named is read alone: no change
away from its path, and no change of other files where it leads somewhere, makes a difference. -/
theorem load_governed (tree : FileTree) (hwd : ∀ name ∈ wd, IsName name) {arguments : List String}
    (h : Flags.parse arguments = .ok flags) :
    (∃! result, Settings.Governs tree wd flags result) ∧
    (∀ result, Settings.Governs tree wd flags result →
      Settings.LoadsBy tree wd flags result) ∧
    ∀ p, flags.config = some p → ∀ tree',
      tree.Spares tree' wd p ∨
        (∃ target, tree.locate wd p = .ok target ∧ tree.ChangesOthers tree' target) →
      Settings.load (tree'.disk wd) flags = Settings.load (tree.disk wd) flags := by
  have hgoverns {result : Option Path} : Settings.Governs tree wd flags result ↔
      Settings.manifestPath? (tree.disk wd) flags = result :=
    Settings.governs_iff hwd (Flags.namesFile_of_parse h)
  refine ⟨⟨_, hgoverns.mpr rfl, fun other hother => (hgoverns.mp hother).symm⟩, ?loads, ?alone⟩
  case loads =>
    intro result hresult
    rw [← hgoverns.mp hresult]
    exact Settings.loadsBy_manifestPath? tree wd flags
  case alone =>
    rintro p hconfig tree' (hspares | ⟨target, hlocate, hchanges⟩)
    · exact Settings.load_of_spares hconfig hspares
    · exact Settings.load_of_spares hconfig (hchanges.spares hlocate)

/-! ### A tree with a link -/

/-- A manifest beside the link `w/l.lox`, one above the file that the link leads to, and one in the
root. -/
def FileTree.linked : FileTree := .ofEntries [
  (["w", "Lox.toml"], .file (utf8 "no manifest")),
  (["w", "l.lox"], .link ⟨["..", "s", "d", "a.lox"]⟩),
  (["s", "d", "a.lox"], .file []),
  (["s", "Lox.toml"], .file (utf8 "[output]\neof = true\n")),
  (["Lox.toml"], .file (utf8 "[output]\nformat = \"json\"\n"))]

namespace FileTree

theorem openAt_linked : linked.openAt wd (pathTo ["s", "Lox.toml"]) =
    .ok (.file (utf8 "[output]\neof = true\n")) := by
  have hs : linked.node? ["s"] = some .directory := by decide +kernel
  have hmanifest : linked.node? ["s", "Lox.toml"] =
      some (.file (utf8 "[output]\neof = true\n")) := by
    decide +kernel
  have hway : linked.Leads maxLinks [] ["", "s", "Lox.toml"] _ (.ok ["s", "Lox.toml"]) :=
    .stays (.inl rfl) (.down (by decide) (by decide +kernel) hs
      (.file (by decide) (by decide +kernel) hmanifest))
  have hlocate : linked.locate wd (pathTo ["s", "Lox.toml"]) = .ok ["s", "Lox.toml"] :=
    hway.follow_eq
  rw [openAt_of_size (by decide +kernel), hlocate]
  simp only [Except.map, nodeAt, hmanifest, Option.getD_some]

theorem nearest_linked : linked.Nearest ["s", "d"] (some (pathTo ["s", "Lox.toml"])) := by
  have hs : linked.node? ["s"] = some .directory := by decide +kernel
  have hd : linked.node? ["s", "d"] = some .directory := by decide +kernel
  have hmissing : linked.node? ["s", "d", "Lox.toml"] = none := by decide +kernel
  have habove : linked.Nearest ["s"] (some (pathTo ["s", "Lox.toml"])) :=
    .here ⟨_, openAt_linked⟩
  refine habove.concat fun hhas => ?_
  have hway : linked.Leads maxLinks [] ["", "s", "d", "Lox.toml"] _ (.error .notFound) :=
    .stays (.inl rfl) (.down (by decide) (by decide +kernel) hs
      (.down (by decide) (by decide +kernel) hd
        (.notFound (by decide) (by decide +kernel) hmissing)))
  obtain ⟨-, -, -, location, content, hfollow, -⟩ := opensFile_iff.mp hhas
  cases hway.follow_eq.symm.trans hfollow

theorem locate_linked :
    linked.locate ["w"] (.ofText "l.lox") = .ok (["s", "d"] ++ ["a.lox"]) := by
  have hlink : linked.node? ["w", "l.lox"] = some (.link ⟨["..", "s", "d", "a.lox"]⟩) := by
    decide +kernel
  have hs : linked.node? ["s"] = some .directory := by decide +kernel
  have hd : linked.node? ["s", "d"] = some .directory := by decide +kernel
  have hfile : linked.node? ["s", "d", "a.lox"] = some (.file []) := by decide +kernel
  have hpath : Path.ofText "l.lox" = ⟨["l.lox"]⟩ := by decide +kernel
  have hway : linked.Leads 40 ["w"] ["l.lox"] _ (.ok ["s", "d", "a.lox"]) :=
    .link (by decide) (by decide +kernel) hlink (.up (.down (by decide) (by decide +kernel) hs
      (.down (by decide) (by decide +kernel) hd (.file (by decide) (by decide +kernel) hfile))))
  rw [hpath]
  exact hway.follow_eq

theorem locate_root_linked : linked.locate ["s", "d"] (.ofText "../..") = .ok [] := by
  have hpath : Path.ofText "../.." = ⟨["..", ".."]⟩ := by decide +kernel
  have hway : linked.Leads maxLinks ["s", "d"] ["..", ".."] _ (.ok []) := .up (.up .arrives)
  rw [hpath]
  exact hway.follow_eq

theorem own_linked : linked.Own ["s", "d"] none := by
  refine .none ?_
  rintro ⟨location, content, hfollow, -⟩
  have hway : linked.Leads maxLinks ["s", "d"] [manifestFileName] _ (.error .notFound) :=
    .notFound (by decide) (by decide +kernel) (by decide +kernel)
  cases hway.follow_eq.symm.trans hfollow

end FileTree

theorem load_linked : Manifest.load (FileTree.linked.disk wd) (pathTo ["s", "Lox.toml"]) =
    .ok ⟨.text, true, true, "> ", some (pathTo ["s", "Lox.toml"])⟩ := by
  have hholds : (FileTree.linked.disk wd).Holds (pathTo ["s", "Lox.toml"])
      "[output]\neof = true\n" := by
    unfold Disk.Holds FileTree.disk
    dsimp only
    rw [FileTree.openAt_linked]
  have hparse : Manifest.parse "[output]\neof = true\n" = .ok ⟨.text, true, true, "> ", none⟩ := by
    decide +kernel
  unfold Manifest.load
  rw [Disk.readText_eq_ok_iff.mpr hholds]
  dsimp only
  rw [hparse]
  rfl

/-- The manifest above the file that a link leads to governs a run over the link. -/
theorem load_governed_link : ∃ flags, Flags.parse ["l.lox", "--no-trivia"] = .ok flags ∧
    Settings.load (FileTree.linked.disk ["w"]) flags = .ok ⟨.text, false, true, "> ", false⟩ := by
  have hparse : Flags.parse ["l.lox", "--no-trivia"] =
      .ok ⟨some (.ofText "l.lox"), none, true, false, none, false⟩ := rfl
  have hwd : ∀ name ∈ ["w"], IsName name := by decide
  obtain ⟨-, hloads, -⟩ := load_governed FileTree.linked hwd hparse
  have hload := hloads _ (.ofFile rfl rfl FileTree.locate_linked FileTree.nearest_linked)
  refine ⟨_, hparse, (hload.ok_iff _).mpr ⟨_, .ofPath load_linked, ?_⟩⟩
  exact Settings.goesBy_iff.mpr rfl

/-- For the root as the file, the directories above the working directory are not searched. -/
theorem load_root_linked : Settings.load (FileTree.linked.disk ["s", "d"])
    ⟨some (.ofText "../.."), none, false, false, none, false⟩ =
      .ok ⟨.text, true, false, "> ", false⟩ := by
  have hparse : Flags.parse ["../.."] =
      .ok ⟨some (.ofText "../.."), none, false, false, none, false⟩ := rfl
  have hwd : ∀ name ∈ ["s", "d"], IsName name := by decide
  have hpath := (Settings.governs_iff hwd (Flags.namesFile_of_parse hparse)).mp
    (.ofRoot rfl rfl FileTree.locate_root_linked FileTree.own_linked)
  have hloads := Settings.loadsBy_manifestPath? FileTree.linked ["s", "d"]
    ⟨some (.ofText "../.."), none, false, false, none, false⟩
  rw [hpath] at hloads
  exact (hloads.ok_iff _).mpr ⟨_, .default, Settings.goesBy_iff.mpr rfl⟩

/-- A file in the place of a directory on the way to a manifest that is missing. -/
theorem load_missing_blocked :
    Settings.load (FileTree.disk (.ofEntries []) [])
      ⟨none, none, false, false, some (.ofText "d/Lox.toml"), false⟩ =
        .error (.unreadable .notFound) ∧
    Settings.load (FileTree.disk (.ofEntries [(["d"], .file [])]) [])
      ⟨none, none, false, false, some (.ofText "d/Lox.toml"), false⟩ =
        .error (.unreadable .notDirectory) := by
  have hpath : Path.ofText "d/Lox.toml" = ⟨["d", "Lox.toml"]⟩ := by decide +kernel
  have hsize : (Path.mk ["d", "Lox.toml"]).text.utf8ByteSize ≤ FileTree.maxPathBytes := by
    decide +kernel
  rw [hpath]
  constructor
  · have hway : (FileTree.ofEntries []).Leads FileTree.maxLinks [] ["d", "Lox.toml"] _
        (.error .notFound) :=
      .notFound (by decide) (by decide +kernel) (by decide +kernel)
    exact Settings.load_of_locate_error rfl hsize hway.follow_eq
  · have hfile : (FileTree.ofEntries [(["d"], .file [])]).node? ["d"] = some (.file []) := by
      decide +kernel
    have hway : (FileTree.ofEntries [(["d"], .file [])]).Leads FileTree.maxLinks []
        ["d", "Lox.toml"] _ (.error .notDirectory) :=
      .notDirectory (by decide) (by decide +kernel) hfile (List.cons_ne_nil _ _)
    exact Settings.load_of_locate_error rfl hsize hway.follow_eq

/-- **Not the nearest manifest, and not the manifest alone.** With the root as the file, a run goes
by the defaults, although the nearest manifest to the working directory has the end of the source
marked. With a manifest that is named and missing, another file makes for another error. -/
theorem load_root_not_nearest :
    (∃ flags manifest, Flags.parse ["../.."] = .ok flags ∧
      FileTree.linked.locate ["s", "d"] (.ofText "../..") = .ok [] ∧
      FileTree.linked.Nearest ["s", "d"] (some (pathTo ["s", "Lox.toml"])) ∧
      Manifest.load (FileTree.linked.disk ["s", "d"]) (pathTo ["s", "Lox.toml"]) = .ok manifest ∧
      manifest.eof = true ∧
      Settings.load (FileTree.linked.disk ["s", "d"]) flags =
        .ok ⟨.text, true, false, "> ", false⟩) ∧
    ∃ flags, Flags.parse ["--config", "d/Lox.toml"] = .ok flags ∧
      Settings.load (FileTree.disk (.ofEntries []) []) flags = .error (.unreadable .notFound) ∧
      Settings.load (FileTree.disk (.ofEntries [(["d"], .file [])]) []) flags =
        .error (.unreadable .notDirectory) :=
  ⟨⟨_, _, rfl, FileTree.locate_root_linked, FileTree.nearest_linked, load_linked, rfl,
      load_root_linked⟩,
    ⟨_, rfl, load_missing_blocked⟩⟩

end LoxTokenizer
