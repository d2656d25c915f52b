import LoxTokenizer.Proofs.Output.Writes
import LoxTokenizer.Proofs.Program.Panics
import LoxTokenizer.Proofs.Prompt.Conversation

/-!
# What the program leaves

The first thing that goes wrong decides how the program ends: the arguments, then the manifest that
governs the run, then the file, then its text. Here each of these is told by what the disk holds,
with no word on the order in which the program looks at it, and with an output that never fails.

* `Disk.Holds`: a file holds the bytes of a text.
* `Manifest.Broken`: what a path holds is no manifest.
* **`Settings.exists_load_error_iff`**: a run has no settings exactly when the manifest that governs
  it is broken.
* `FileRun.Leaves`, `Prompt.Leaves`: what a run over a file and a run at the prompt leave.
* **`run_leaves`**: what the program leaves.
-/

namespace LoxTokenizer

/-! ## Files -/

/-- A file holds a text if it holds the bytes of that text. -/
def Disk.Holds (disk : Disk) (p : Path) (text : String) : Prop :=
  disk.read p = .ok (utf8 text)

/-- A disk of some files in the root, without links. -/
def Disk.ofFiles (files : List (Path × String)) : Disk where
  read p := ((files.lookup p).map fun text => .ok (utf8 text)).getD (.error .notFound)
  isFile p := (files.lookup p).isSome
  canonical? _ := none
  workingDirectory := .root

variable {disk disk' : Disk} {p : Path} {text : String} {flags : Flags}

theorem Disk.readText_eq_ok_iff : disk.readText p = .ok text ↔ disk.Holds p text := by
  unfold readText Holds
  cases disk.read p with
  | error e =>
    constructor
    · intro h
      cases h
    · intro h
      cases h
  | ok bytes =>
    dsimp only
    rw [Except.ok.injEq, ← decodeUtf8?_eq_some_iff]
    cases decodeUtf8? bytes with
    | none => simp
    | some found => simp

/-- A file holds one text at most. -/
theorem Disk.Holds.unique {other : String} (h : disk.Holds p text) (h' : disk.Holds p other) :
    text = other :=
  utf8_inj (Except.ok.inj (h.symm.trans h'))

theorem Disk.readText_eq_error (h : ∀ text, ¬ disk.Holds p text) :
    ∃ cause, disk.readText p = .error cause := by
  cases hread : disk.readText p with
  | error cause => exact ⟨cause, rfl⟩
  | ok text => exact absurd (readText_eq_ok_iff.mp hread) (h text)

/-! ## Manifests -/

/-- **A text that is no manifest**: it is no document, or a document without the shape of a
manifest, or it asks for a format that is none. -/
inductive Manifest.Malformed (text : String) : Prop where
  | illFormed (hd : Toml.Document.read? text.toList = none)
  | misshapen {entries : Toml.Entries} {fault : ShapeFault}
      (hd : Toml.Document.read? text.toList = some entries) (hs : sections? entries = .error fault)
  | unknownFormat {entries : Toml.Entries} {s : Sections} {name : String}
      (hd : Toml.Document.read? text.toList = some entries) (hs : sections? entries = .ok s)
      (hf : s.output.format = some name) (hn : ∀ format : OutputFormat, name ≠ format.name)

/-- **A broken manifest**: a file that holds no text, or one that is no manifest. -/
def Manifest.Broken (disk : Disk) (p : Path) : Prop :=
  ∀ text, disk.Holds p text → Malformed text

/-- The path of the manifest that governs a run: the one that is named, or the one that is found. -/
def Settings.manifestPath? (disk : Disk) (flags : Flags) : Option Path :=
  match flags.config with
  | some p => some p
  | none => Manifest.find? disk (searchStart disk flags.file)

theorem OutputSection.exists_format_error_iff {s : OutputSection} :
    (∃ e, s.format? = .error e) ↔
      ∃ name, s.format = some name ∧ ∀ format : OutputFormat, name ≠ format.name := by
  unfold format?
  cases s.format with
  | none => simp
  | some name =>
    dsimp only
    cases hname : OutputFormat.ofName? name with
    | none =>
      refine iff_of_true ⟨_, rfl⟩ ⟨name, rfl, fun format heq => ?_⟩
      rw [OutputFormat.ofName?_eq_some_iff.mpr heq] at hname
      cases hname
    | some format =>
      refine iff_of_false ?_ ?_
      · rintro ⟨e, he⟩
        cases he
      · rintro ⟨name', heq, hnone⟩
        cases heq
        exact hnone format (OutputFormat.ofName?_eq_some_iff.mp hname)

namespace Manifest

/-- **A text cannot be parsed** exactly when it is no manifest. -/
theorem exists_parse_error_iff : (∃ e, parse text = .error e) ↔ Malformed text := by
  unfold parse ofEntries ofSections
  cases hd : Toml.Document.read? text.toList with
  | none => exact iff_of_true ⟨_, rfl⟩ (.illFormed hd)
  | some entries =>
    dsimp only
    cases hs : sections? entries with
    | error fault => exact iff_of_true ⟨_, rfl⟩ (.misshapen hd hs)
    | ok s =>
      dsimp only
      cases hformat : s.output.format? with
      | error e =>
        obtain ⟨name, hf, hn⟩ := OutputSection.exists_format_error_iff.mp ⟨e, hformat⟩
        exact iff_of_true ⟨e, rfl⟩ (.unknownFormat hd hs hf hn)
      | ok format =>
        refine iff_of_false (fun ⟨e, he⟩ => by cases he) fun h => ?_
        cases h with
        | illFormed hd' => rw [hd'] at hd; cases hd
        | misshapen hd' hs' =>
          obtain rfl := Option.some.inj (hd.symm.trans hd')
          rw [hs'] at hs
          cases hs
        | unknownFormat hd' hs' hf hn =>
          obtain rfl := Option.some.inj (hd.symm.trans hd')
          obtain rfl := Except.ok.inj (hs.symm.trans hs')
          obtain ⟨e, he⟩ := OutputSection.exists_format_error_iff.mpr ⟨_, hf, hn⟩
          rw [hformat] at he
          cases he

theorem exists_load_error_iff : (∃ e, load disk p = .error e) ↔ Broken disk p := by
  unfold load Broken
  cases hread : disk.readText p with
  | error cause =>
    refine iff_of_true ⟨_, rfl⟩ fun text htext => ?_
    rw [Disk.readText_eq_ok_iff.mpr htext] at hread
    cases hread
  | ok text =>
    have htext := Disk.readText_eq_ok_iff.mp hread
    dsimp only
    cases hparse : parse text with
    | error e =>
      refine iff_of_true ⟨e, rfl⟩ fun other hother => ?_
      rw [hother.unique htext]
      exact exists_parse_error_iff.mp ⟨e, hparse⟩
    | ok manifest =>
      refine iff_of_false (fun ⟨e, he⟩ => by cases he) fun h => ?_
      obtain ⟨e, he⟩ := exists_parse_error_iff.mpr (h text htext)
      rw [hparse] at he
      cases he

end Manifest

namespace Settings

/-- The manifest that governs a run is broken. -/
def Misgoverned (disk : Disk) (flags : Flags) : Prop :=
  ∃ p, manifestPath? disk flags = some p ∧ Manifest.Broken disk p

theorem governingManifest_of_some (h : manifestPath? disk flags = some p) :
    governingManifest disk flags = Manifest.load disk p := by
  unfold governingManifest
  unfold manifestPath? at h
  cases hconfig : flags.config with
  | some q =>
    rw [hconfig] at h
    obtain rfl := Option.some.inj h
    rfl
  | none =>
    rw [hconfig] at h
    dsimp only at h ⊢
    rw [Manifest.discover, h]

theorem governingManifest_of_none (h : manifestPath? disk flags = none) :
    governingManifest disk flags = .ok .default := by
  unfold governingManifest
  unfold manifestPath? at h
  cases hconfig : flags.config with
  | some q =>
    rw [hconfig] at h
    cases h
  | none =>
    rw [hconfig] at h
    dsimp only at h ⊢
    rw [Manifest.discover, h]

/-- **A run has no settings** exactly when the manifest that governs it is broken. -/
theorem exists_load_error_iff : (∃ e, load disk flags = .error e) ↔ Misgoverned disk flags := by
  unfold load Misgoverned
  cases hpath : manifestPath? disk flags with
  | none =>
    rw [governingManifest_of_none hpath]
    exact iff_of_false (fun ⟨e, he⟩ => by cases he) fun ⟨p, hp, _⟩ => by cases hp
  | some p =>
    rw [governingManifest_of_some hpath]
    simp only [Option.some.injEq, exists_eq_left', ← Manifest.exists_load_error_iff]
    cases Manifest.load disk p with
    | error e => exact iff_of_true ⟨e, rfl⟩ ⟨e, rfl⟩
    | ok manifest =>
      exact iff_of_false (fun ⟨e, he⟩ => by cases he) fun ⟨e, he⟩ => by cases he

/-- Two disks with the same manifest for a run. -/
structure SameManifest (disk disk' : Disk) (flags : Flags) : Prop where
  path : manifestPath? disk' flags = manifestPath? disk flags
  read : ∀ p, manifestPath? disk flags = some p → disk'.read p = disk.read p

/-- Of a disk, nothing but the manifest matters to the settings. -/
theorem load_congr (h : SameManifest disk disk' flags) : load disk' flags = load disk flags := by
  unfold load
  cases hpath : manifestPath? disk flags with
  | none =>
    rw [governingManifest_of_none hpath, governingManifest_of_none (h.path.trans hpath)]
  | some p =>
    rw [governingManifest_of_some hpath, governingManifest_of_some (h.path.trans hpath)]
    unfold Manifest.load Disk.readText
    rw [h.read p hpath]

end Settings

/-! ## Runs -/

variable {settings : Settings} {file : Path} {input : List UInt8} {o : Outcome}

/-- **What a run over a file leaves**, with an output that never fails. -/
structure FileRun.Leaves (disk : Disk) (settings : Settings) (file : Path) (o : Outcome) :
    Prop where
  ioFailure_iff : o.status.code = 74 ↔ ∀ source, ¬ disk.Holds file source
  badData_iff : o.status.code = 65 ↔ ∃ source e, disk.Holds file source ∧ scan source = .error e
  /-- Nothing is written unless the run succeeds. -/
  output : o.status.code ≠ 0 → o.output = []
  /-- Where the file scans, all its tokens that are shown are listed, and all its tokens are
  counted. -/
  success : ∀ source found, disk.Holds file source → scan source = .ok found →
    ∃ tokens, settings.scan source = .ok tokens ∧
      tokens.length = found.length + (if settings.eof then 1 else 0) ∧ o.status.code = 0 ∧
      o.output = utf8 (Listing.render settings.format (Listing.shown settings.trivia tokens)) ∧
      o.errors = if settings.quiet then ""
        else "Scanned " ++ file.text ++ " (" ++ toString tokens.length ++ " tokens)\n"

/-- **What a run at the prompt leaves**, with an output that never fails. -/
structure Prompt.Leaves (settings : Settings) (input : List UInt8) (o : Outcome) : Prop where
  eq_run : o = (run settings .unlimited input).toOutcome
  success_iff : o.status.code = 0 ↔ ∀ line ∈ lines input, IsText line
  ioFailure_iff : o.status.code = 74 ↔ ∃ line ∈ lines input, ¬ IsText line

/-- The marker of the end is one token more. -/
theorem Settings.exists_scan {source : String} {found : List Token}
    (h : LoxTokenizer.scan source = .ok found) (settings : Settings) :
    ∃ tokens, settings.scan source = .ok tokens ∧
      tokens.length = found.length + (if settings.eof then 1 else 0) := by
  unfold scan
  by_cases heof : settings.eof = true
  · rw [if_pos heof]
    exact ⟨_, scanWithEof_eq_ok_iff.mpr ⟨found, h, rfl⟩, by simp [heof]⟩
  · rw [if_neg heof]
    exact ⟨found, h, by simp [heof]⟩

namespace FileRun

theorem leaves_of_unreadable (h : ∀ source, ¬ disk.Holds file source) :
    Leaves disk settings file (run disk settings .unlimited file) := by
  obtain ⟨cause, hcause⟩ := Disk.readText_eq_error h
  unfold run
  rw [hcause]
  exact {
    ioFailure_iff := iff_of_true rfl h
    badData_iff := iff_of_false (fun hcode => by cases hcode) fun ⟨source, _, hsource, _⟩ =>
      h source hsource
    output := fun _ => rfl
    success := fun source _ hsource _ => absurd hsource (h source) }

theorem leaves_of_error {source : String} {e : ScanError} (h : disk.Holds file source)
    (hscan : scan source = .error e) :
    Leaves disk settings file (run disk settings .unlimited file) := by
  unfold run
  rw [Disk.readText_eq_ok_iff.mpr h]
  dsimp only
  rw [Settings.scan_eq_error_iff.mpr hscan]
  exact {
    ioFailure_iff := iff_of_false (fun hcode => by cases hcode) fun hnone => hnone source h
    badData_iff := iff_of_true rfl ⟨source, e, h, hscan⟩
    output := fun _ => rfl
    success := fun source' found hsource hfound => by
      rw [hsource.unique h, hscan] at hfound
      cases hfound }

theorem leaves_of_ok {source : String} {found : List Token} (h : disk.Holds file source)
    (hscan : scan source = .ok found) :
    Leaves disk settings file (run disk settings .unlimited file) := by
  obtain ⟨tokens, htokens, hlength⟩ := Settings.exists_scan hscan settings
  rw [run_unlimited (Disk.readText_eq_ok_iff.mpr h) htokens]
  refine {
    ioFailure_iff := iff_of_false (fun hcode => by cases hcode) fun hnone => hnone source h
    badData_iff := iff_of_false (fun hcode => by cases hcode) ?_
    output := fun hcode => absurd rfl hcode
    success := fun source' found' hsource hfound => ?_ }
  · rintro ⟨source', e, hsource, he⟩
    rw [hsource.unique h, hscan] at he
    cases he
  · obtain rfl := hsource.unique h
    obtain rfl := Except.ok.inj (hscan.symm.trans hfound)
    exact ⟨tokens, htokens, hlength, rfl, rfl, rfl⟩

/-- **What a run over a file leaves** is decided by the file. -/
theorem leaves (disk : Disk) (settings : Settings) (file : Path) :
    Leaves disk settings file (run disk settings .unlimited file) := by
  by_cases h : ∃ source, disk.Holds file source
  · obtain ⟨source, hsource⟩ := h
    cases hscan : scan source with
    | ok found => exact leaves_of_ok hsource hscan
    | error e => exact leaves_of_error hsource hscan
  · exact leaves_of_unreadable (not_exists.mp h)

end FileRun

/-- **What a run at the prompt leaves** is decided by whether its lines are texts. -/
theorem Prompt.leaves (settings : Settings) (input : List UInt8) :
    Leaves settings input (run settings .unlimited input).toOutcome := by
  obtain ⟨hall, hsome⟩ := run_answers_lines settings (cutAfter_lines input)
  obtain ⟨heard, rest, hlines, hheard, hrest⟩ := exists_texts (lines input)
  cases rest with
  | nil =>
    rw [List.append_nil] at hlines
    have htext : ∀ line ∈ lines input, IsText line := hlines ▸ hheard
    refine ⟨rfl, ?_, ?_⟩ <;> rw [hall htext]
    · exact iff_of_true rfl htext
    · exact iff_of_false (fun hcode => by cases hcode) fun ⟨line, hl, hbad⟩ => hbad (htext line hl)
  | cons bad rest =>
    have hbad : ¬ IsText bad := hrest bad rfl
    have hmem : bad ∈ lines input := by simp [hlines]
    refine ⟨rfl, ?_, ?_⟩ <;> rw [hsome heard bad rest hlines hheard hbad]
    · exact iff_of_false (fun hcode => by cases hcode) fun htext => hbad (htext bad hmem)
    · exact iff_of_true rfl ⟨bad, hmem, hbad⟩

/-! ## The program -/

namespace CommandLine

/-- The code that arguments end the program with that do not lead to a run. -/
def interruptionCode : Interruption → Nat
  | .error _ => 2
  | .help _ | .version => 0

variable {arguments : List String}

theorem run_of_interruption {interruption : Interruption}
    (h : Flags.parse arguments = .error interruption) (disk : Disk) (input : List UInt8) :
    run disk input arguments = interrupted interruption := by
  unfold run
  rw [h]

theorem run_of_load_error {e : ManifestError} (h : Flags.parse arguments = .ok flags)
    (he : Settings.load disk flags = .error e) (input : List UInt8) :
    run disk input arguments = ⟨.badConfig, [], errorLine e.message⟩ := by
  simp only [run, runWith, h, he]

theorem run_of_file (h : Flags.parse arguments = .ok flags)
    (hload : Settings.load disk flags = .ok settings) (hfile : flags.file = some file)
    (input : List UInt8) :
    run disk input arguments = FileRun.run disk settings .unlimited file := by
  simp only [run, runWith, h, hload, hfile]

theorem run_of_no_file (h : Flags.parse arguments = .ok flags)
    (hload : Settings.load disk flags = .ok settings) (hfile : flags.file = none)
    (input : List UInt8) :
    run disk input arguments = (Prompt.run settings .unlimited input).toOutcome := by
  simp only [run, runWith, h, hload, hfile]

/-- **What the program leaves.** On every disk, for every input and all arguments, and with an
output that never fails, the program ends without a crash, and:

* wrong arguments end it with code 2, and the help and the version with code 0, whatever the disk
  and the input hold;
* else a broken manifest ends it with code 78 and nothing on its output, whatever the input and all
  other files hold;
* else a file, if one is given, decides how it ends: with code 74 if the file holds no text, with 65
  if the text does not scan, with nothing on its output either way, and with code 0 and the tokens
  of the file if it does;
* else it ends as the prompt does: with code 0, or with 74 if a line is no text. -/
theorem run_leaves (disk : Disk) (input : List UInt8) (arguments : List String) :
    attempt disk input arguments = .ok (run disk input arguments) ∧
    (∀ interruption, Flags.parse arguments = .error interruption →
      (run disk input arguments).status.code = interruptionCode interruption ∧
        ∀ disk' input', run disk' input' arguments = run disk input arguments) ∧
    ∀ flags, Flags.parse arguments = .ok flags →
      (Settings.Misgoverned disk flags →
        (run disk input arguments).status.code = 78 ∧ (run disk input arguments).output = [] ∧
          ∀ disk' input', Settings.SameManifest disk disk' flags →
            run disk' input' arguments = run disk input arguments) ∧
      (¬ Settings.Misgoverned disk flags → ∃ settings, Settings.load disk flags = .ok settings ∧
        (∀ file, flags.file = some file →
          FileRun.Leaves disk settings file (run disk input arguments)) ∧
        (flags.file = none → Prompt.Leaves settings input (run disk input arguments))) := by
  refine ⟨attempt_eq disk input arguments, fun interruption h => ⟨?_, fun disk' input' => ?_⟩,
    fun flags h => ⟨fun hbroken => ?_, fun hgood => ?_⟩⟩
  · rw [run_of_interruption h]
    cases interruption <;> rfl
  · rw [run_of_interruption h, run_of_interruption h]
  · obtain ⟨e, he⟩ := Settings.exists_load_error_iff.mpr hbroken
    rw [run_of_load_error h he]
    exact ⟨rfl, rfl, fun disk' input' hsame =>
      run_of_load_error h ((Settings.load_congr hsame).trans he) input'⟩
  · cases hload : Settings.load disk flags with
    | error e => exact absurd (Settings.exists_load_error_iff.mp ⟨e, hload⟩) hgood
    | ok settings =>
      refine ⟨settings, rfl, fun file hfile => ?_, fun hfile => ?_⟩
      · rw [run_of_file h hload hfile]
        exact FileRun.leaves disk settings file
      · rw [run_of_no_file h hload hfile]
        exact Prompt.leaves settings input

/-- A manifest that is no document is told before a source that does not scan, which is told where
the manifest is empty. -/
theorem run_leaves_manifest :
    (run (.ofFiles [(.ofText "m", "["), (.ofText "x", "@")]) []
      ["--config", "m", "x"]).status.code = 78 ∧
    (run (.ofFiles [(.ofText "m", ""), (.ofText "x", "@")]) []
      ["--config", "m", "x"]).status.code = 65 := by
  have hflags : Flags.parse ["--config", "m", "x"] =
      .ok ⟨some (.ofText "x"), none, false, false, some (.ofText "m"), false⟩ := by
    decide +kernel
  constructor
  · obtain ⟨-, -, hruns⟩ :=
      run_leaves (.ofFiles [(.ofText "m", "["), (.ofText "x", "@")]) [] ["--config", "m", "x"]
    have hholds : (Disk.ofFiles [(.ofText "m", "["), (.ofText "x", "@")]).Holds (.ofText "m") "[" :=
      rfl
    have hread : Toml.Document.read? "[".toList = none := by decide +kernel
    obtain ⟨hcode, -, -⟩ := (hruns _ hflags).1 ⟨.ofText "m", rfl, fun text htext => by
      rw [htext.unique hholds]
      exact .illFormed hread⟩
    exact hcode
  · obtain ⟨-, -, hruns⟩ :=
      run_leaves (.ofFiles [(.ofText "m", ""), (.ofText "x", "@")]) [] ["--config", "m", "x"]
    have hm : (Disk.ofFiles [(.ofText "m", ""), (.ofText "x", "@")]).Holds (.ofText "m") "" := rfl
    have hx : (Disk.ofFiles [(.ofText "m", ""), (.ofText "x", "@")]).Holds (.ofText "x") "@" := rfl
    have hgood : ¬ Settings.Misgoverned (.ofFiles [(.ofText "m", ""), (.ofText "x", "@")])
        ⟨some (.ofText "x"), none, false, false, some (.ofText "m"), false⟩ := by
      rintro ⟨p, hp, hbroken⟩
      obtain rfl := Option.some.inj hp
      obtain ⟨e, he⟩ := Manifest.exists_parse_error_iff.mpr (hbroken "" hm)
      cases he
    have hscan : (scan "@").map (List.map Token.piece) =
        .error (.unexpectedCharacter '@' ⟨⟨1, 1, 0⟩, ⟨1, 2, 1⟩⟩) := by
      decide +kernel
    obtain ⟨settings, -, hfile, -⟩ := (hruns _ hflags).2 hgood
    exact (hfile _ rfl).badData_iff.mpr ⟨"@", _, hx, eq_error_of_map hscan⟩

end CommandLine

end LoxTokenizer
