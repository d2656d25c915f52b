import LoxTokenizer.Manifest
import LoxTokenizer.Proofs.Manifest.Sections
import Mathlib

/-!
# The texts that are manifests

A text is a manifest if it is well-formed, has the shape of one, and names a format that there is,
if it names one. The shape comes first: where it is at fault the name of the format is not looked
at. What the manifest holds is told by the keys of the document alone.

* `Manifest.Means`: what a document means, with the defaults. **`Manifest.Means.unique`**: it means
  one thing.
* `Manifest.Outcome`: the three outcomes of a document. **`Manifest.outcome_parse`**: every document
  whose sections are tables has one of them.
* **`Manifest.parse_documented`**: which texts are manifests, and what each means.
-/

namespace LoxTokenizer

open Toml (Entries Key Located TableOrigin Value)

namespace Manifest

/-! ## What a document means -/

/-- A document gives a value for a key of a section. -/
def GivesKey (root : Entries) (title name : String) (v : Value) : Prop :=
  ∃ (origin : TableOrigin) (entries : Entries),
    root.Has title (.table origin entries) ∧ Entries.Has entries name v

/-- **What a document means** as a manifest. It does not tell where it is from. -/
structure Means (root : Entries) (manifest : Manifest) : Prop where
  format : Settled (GivesKey root "output" "format")
    (fun format : OutputFormat => .string format.name) .text manifest.format
  trivia : Settled (GivesKey root "output" "trivia") .boolean true manifest.trivia
  eof : Settled (GivesKey root "output" "eof") .boolean false manifest.eof
  prompt : Settled (GivesKey root "prompt" "prompt") .string "> " manifest.prompt
  path : manifest.path = none

variable {root entries : Entries} {name title n text : String} {v v' : Value}
  {manifest manifest' : Manifest} {s : Sections} {result : Except ManifestError Manifest}

theorem GivesKey.unique (hroot : root.Distinct) (h : GivesKey root title name v)
    (h' : GivesKey root title name v') : v = v' := by
  obtain ⟨origin, entries, hsection, hv⟩ := h
  obtain ⟨origin', entries', hsection', hv'⟩ := h'
  obtain ⟨rfl, rfl⟩ := Value.table.inj (hsection.unique hroot hsection')
  obtain ⟨e, he, -, hvalue⟩ := hsection
  have hentries := hroot.values e he
  rw [hvalue, Value.distinct_table] at hentries
  exact hv.unique hentries hv'

/-- What a section gives is what its entries have. -/
theorem givesKey_iff (hroot : root.Distinct) (h : EntriesOf root title entries) :
    GivesKey root title name v ↔ entries.Has name v := by
  constructor
  · rintro ⟨origin, entries', hsection, hv⟩
    cases h with
    | present h =>
      obtain ⟨-, rfl⟩ := Value.table.inj (h.unique hroot hsection)
      exact hv
    | absent h => exact absurd hsection (h _)
  · intro hv
    cases h with
    | present h => exact ⟨_, _, h, hv⟩
    | absent => exact absurd hv Entries.not_has_nil

theorem Means.unique (hroot : root.Distinct) (h : Means root manifest) (h' : Means root manifest') :
    manifest = manifest' := by
  have hgives (title name : String) : ∀ v v', GivesKey root title name v →
      GivesKey root title name v' → v = v' :=
    fun _ _ => GivesKey.unique hroot
  have hname : (fun format : OutputFormat => Value.string format.name).Injective := by
    intro format format' heq
    have hsame := Value.string.inj heq
    cases format <;> cases format' <;> simp_all [OutputFormat.name]
  have hformat := h.format.unique (hgives _ _) hname h'.format
  have htrivia := h.trivia.unique (hgives _ _) (fun _ _ => Value.boolean.inj) h'.trivia
  have heof := h.eof.unique (hgives _ _) (fun _ _ => Value.boolean.inj) h'.eof
  have hprompt := h.prompt.unique (hgives _ _) (fun _ _ => Value.string.inj) h'.prompt
  have hpath := h.path.trans h'.path.symm
  cases manifest
  cases manifest'
  simp_all

/-- The name of a format in a section is the one that the document gives. -/
theorem Tells.gives_format_iff (hroot : root.Distinct) (hs : Tells root s) :
    GivesKey root "output" "format" (.string n) ↔ s.output.format = some n := by
  obtain ⟨entries, hentries, houtput⟩ := hs.output
  have hiff {v : Value} : GivesKey root "output" "format" v ↔ entries.Has "format" v :=
    givesKey_iff hroot hentries
  constructor
  · intro hgives
    cases hformat : s.output.format with
    | none => exact absurd (hiff.mp hgives) (houtput.unnamed hformat _)
    | some n' =>
      have hsame := hgives.unique hroot (hiff.mpr (houtput.named n' hformat))
      rw [Value.string.inj hsame]
  · exact fun hformat => hiff.mpr (houtput.named n hformat)

theorem Tells.not_gives_format (hroot : root.Distinct) (hs : Tells root s)
    (h : s.output.format = none) (v : Value) : ¬ GivesKey root "output" "format" v := by
  obtain ⟨entries, hentries, houtput⟩ := hs.output
  exact fun hgives => houtput.unnamed h v ((givesKey_iff hroot hentries).mp hgives)

/-- A section's format is the default, or the one it names, or its name is none. -/
theorem format?_cases (s : OutputSection) :
    (s.format = none ∧ s.format? = .ok .text) ∨
    (∃ format : OutputFormat, s.format = some format.name ∧ s.format? = .ok format) ∨
    (∃ n, s.format = some n ∧ (∀ format : OutputFormat, n ≠ format.name) ∧
      s.format? = .error (.unknownFormat n)) := by
  unfold OutputSection.format?
  split
  · rename_i hnone
    exact .inl ⟨hnone, rfl⟩
  · rename_i n hn
    split
    · rename_i format hformat
      rw [OutputFormat.ofName?_eq_some_iff] at hformat
      exact .inr (.inl ⟨format, hformat ▸ hn, rfl⟩)
    · rename_i hunknown
      refine .inr (.inr ⟨n, hn, fun format hname => ?_, rfl⟩)
      rw [OutputFormat.ofName?_eq_some_iff.mpr hname] at hunknown
      cases hunknown

/-- The manifest of the sections is what the document means. -/
theorem Tells.means (hroot : root.Distinct) (hs : Tells root s)
    (h : ofSections s = .ok manifest) : Means root manifest := by
  obtain ⟨output, houtput, houtput'⟩ := hs.output
  obtain ⟨prompt, hprompt, hprompt'⟩ := hs.prompt
  obtain ⟨format, hformat, rfl⟩ := exists_of_map_eq_ok h
  refine ⟨?_, ?_, ?_, ?_, rfl⟩
  · obtain ⟨hnone, heq⟩ | ⟨format', hname, heq⟩ | ⟨n, -, -, heq⟩ := format?_cases s.output
    · obtain rfl := Except.ok.inj (heq.symm.trans hformat)
      exact .default (hs.not_gives_format hroot hnone)
    · obtain rfl := Except.ok.inj (heq.symm.trans hformat)
      exact .given ((hs.gives_format_iff hroot).mpr hname)
    · cases heq.symm.trans hformat
  · exact (Settled.congr fun _ => givesKey_iff hroot houtput).mpr houtput'.trivia
  · exact (Settled.congr fun _ => givesKey_iff hroot houtput).mpr houtput'.eof
  · exact (Settled.congr fun _ => givesKey_iff hroot hprompt).mpr hprompt'

/-- What becomes of a document: its shape is that of a manifest and its sections tell of it, or it
has another shape. -/
theorem ofEntries_cases (hroot : SectionsAreTables root) (text : String) :
    (WellShaped root ∧ ∃ s, Tells root s ∧ ofEntries text root = ofSections s) ∨
    (¬ WellShaped root ∧ ∃ fault, ofEntries text root = .error (.misshapen text fault)) := by
  unfold ofEntries
  cases hsections : sections? root with
  | ok s =>
    obtain ⟨hshape, htells⟩ := tells_of_sections? hroot hsections
    exact .inl ⟨hshape, s, htells, rfl⟩
  | error fault =>
    refine .inr ⟨fun hshape => ?_, fault, rfl⟩
    obtain ⟨s, hs⟩ := exists_sections? hshape
    rw [hsections] at hs
    cases hs

/-- The three outcomes of a document whose sections are tables, told apart by its keys. -/
inductive Outcome (text : String) (root : Entries) : Except ManifestError Manifest → Prop where
  | ok {manifest : Manifest} (hshape : WellShaped root) (hmeans : Means root manifest) :
    Outcome text root (.ok manifest)
  | unknownFormat {n : String} (hshape : WellShaped root)
    (hgives : GivesKey root "output" "format" (.string n))
    (hunknown : ∀ format : OutputFormat, n ≠ format.name) :
    Outcome text root (.error (.unknownFormat n))
  | misshapen {fault : ShapeFault} (hshape : ¬ WellShaped root) :
    Outcome text root (.error (.misshapen text fault))

theorem outcome_ofEntries (hdistinct : root.Distinct) (hroot : SectionsAreTables root)
    (text : String) : Outcome text root (ofEntries text root) := by
  obtain ⟨hshape, s, hs, heq⟩ | ⟨hshape, fault, heq⟩ := ofEntries_cases hroot text
  · rw [heq]
    cases hof : ofSections s with
    | ok manifest => exact .ok hshape (hs.means hdistinct hof)
    | error e =>
      obtain ⟨-, hformat⟩ | ⟨format, -, hformat⟩ | ⟨n, hn, hunknown, hformat⟩ :=
        format?_cases s.output
      · rw [ofSections, hformat] at hof
        cases hof
      · rw [ofSections, hformat] at hof
        cases hof
      · rw [ofSections, hformat] at hof
        cases hof
        exact .unknownFormat hshape ((hs.gives_format_iff hdistinct).mpr hn) hunknown
  · rw [heq]
    exact .misshapen hshape

theorem exists_name_iff :
    (∃ format : OutputFormat, n = format.name) ↔ n ∈ ["text", "json", "debug"] := by
  constructor
  · rintro ⟨format, rfl⟩
    cases format <;> decide
  · intro hn
    simp only [List.mem_cons, List.not_mem_nil, or_false] at hn
    rcases hn with rfl | rfl | rfl
    · exact ⟨.text, rfl⟩
    · exact ⟨.json, rfl⟩
    · exact ⟨.debug, rfl⟩

/-- Where a document means anything, the format that it gives has a name that there is. -/
theorem Means.exists_name (hroot : root.Distinct) (h : Means root manifest)
    (hgives : GivesKey root "output" "format" (.string n)) :
    ∃ format : OutputFormat, n = format.name := by
  cases manifest with
  | mk format trivia eof prompt path =>
    have hformat := h.format
    dsimp only at hformat
    cases hformat with
    | given hgiven => exact ⟨format, Value.string.inj (hgives.unique hroot hgiven)⟩
    | default hnone => exact absurd hgives (hnone _)

namespace Outcome

theorem eq_ok_iff (hroot : root.Distinct) (h : Outcome text root result) :
    result = .ok manifest ↔ WellShaped root ∧ Means root manifest := by
  cases h with
  | ok hshape hmeans =>
    constructor
    · intro heq
      rw [← Except.ok.inj heq]
      exact ⟨hshape, hmeans⟩
    · exact fun h => congrArg Except.ok (hmeans.unique hroot h.2)
  | unknownFormat hshape hgives hunknown =>
    refine iff_of_false nofun fun h => ?_
    obtain ⟨format, hname⟩ := h.2.exists_name hroot hgives
    exact hunknown format hname
  | misshapen hshape => exact iff_of_false nofun fun h => hshape h.1

theorem exists_ok_iff (hroot : root.Distinct) (h : Outcome text root result) :
    (∃ manifest, result = .ok manifest) ↔
      WellShaped root ∧ ∀ n, GivesKey root "output" "format" (.string n) →
        ∃ format : OutputFormat, n = format.name := by
  cases h with
  | ok hshape hmeans =>
    exact iff_of_true ⟨_, rfl⟩ ⟨hshape, fun n hgives => hmeans.exists_name hroot hgives⟩
  | unknownFormat hshape hgives hunknown =>
    refine iff_of_false nofun fun h => ?_
    obtain ⟨format, hname⟩ := h.2 _ hgives
    exact hunknown format hname
  | misshapen hshape => exact iff_of_false nofun fun h => hshape h.1

theorem eq_unknownFormat_iff (hroot : root.Distinct) (h : Outcome text root result) :
    result = .error (.unknownFormat n) ↔ WellShaped root ∧
      GivesKey root "output" "format" (.string n) ∧ ∀ format : OutputFormat, n ≠ format.name := by
  cases h with
  | ok hshape hmeans =>
    refine iff_of_false nofun fun h => ?_
    obtain ⟨format, hname⟩ := hmeans.exists_name hroot h.2.1
    exact h.2.2 format hname
  | unknownFormat hshape hgives hunknown =>
    constructor
    · intro heq
      cases heq
      exact ⟨hshape, hgives, hunknown⟩
    · intro h
      rw [Value.string.inj (hgives.unique hroot h.2.1)]
  | misshapen hshape => exact iff_of_false nofun fun h => hshape h.1

theorem exists_misshapen_iff (h : Outcome text root result) :
    (∃ fault, result = .error (.misshapen text fault)) ↔ ¬ WellShaped root := by
  cases h with
  | ok hshape _ => exact iff_of_false nofun (absurd hshape)
  | unknownFormat hshape _ _ => exact iff_of_false nofun (absurd hshape)
  | misshapen hshape => exact iff_of_true ⟨_, rfl⟩ hshape

end Outcome

theorem outcome_parse (hread : Toml.Document.read? text.toList = some root)
    (hroot : SectionsAreTables root) : Outcome text root (parse text) := by
  unfold parse
  rw [hread]
  exact outcome_ofEntries (Toml.Document.distinct_of_read? hread) hroot text

/-- **Which texts are manifests**, for every text that is well-formed and whose sections are tables,
however and in whatever order they are written.

* It is a manifest exactly if it has nothing but sections and their keys, each with a value of its
  kind, and the name of a format that there is, if it gives one. The manifest is what it means:
  each value that is given, and the default for each that is not.
* If all is well but the name of the format, that name is the error.
* In every other case the error is the shape, also where the name of the format is unknown too.

A text that is not well-formed is no manifest. -/
theorem parse_documented (text : String) :
    (∀ root, Toml.Document.read? text.toList = some root → SectionsAreTables root →
      ((∃ manifest, parse text = .ok manifest) ↔ WellShaped root ∧
        ∀ n, GivesKey root "output" "format" (.string n) → n ∈ ["text", "json", "debug"]) ∧
      (∀ manifest, parse text = .ok manifest ↔ WellShaped root ∧ Means root manifest) ∧
      (∀ n, parse text = .error (.unknownFormat n) ↔ WellShaped root ∧
        GivesKey root "output" "format" (.string n) ∧ n ∉ ["text", "json", "debug"]) ∧
      ((∃ fault, parse text = .error (.misshapen text fault)) ↔ ¬ WellShaped root)) ∧
    (Toml.Document.read? text.toList = none → parse text = .error .illFormed) := by
  refine ⟨fun root hread htables => ?_, fun hread => ?_⟩
  · have hroot := Toml.Document.distinct_of_read? hread
    have houtcome := outcome_parse hread htables
    refine ⟨?_, fun manifest => houtcome.eq_ok_iff hroot, fun n => ?_,
      houtcome.exists_misshapen_iff⟩
    · simp only [← exists_name_iff]
      exact houtcome.exists_ok_iff hroot
    · rw [← exists_name_iff, not_exists]
      exact houtcome.eq_unknownFormat_iff hroot
  · unfold parse
    rw [hread]

/-- A dotted key and a section without keys: what is not given has its default. -/
theorem parse_documented_sections :
    parse "output.eof = true\n[prompt]\n" = .ok ⟨.text, true, true, "> ", none⟩ := by
  have hread : Toml.Document.read? "output.eof = true\n[prompt]\n".toList = some
      [(⟨"output", ⟨27, 21⟩⟩,
        ⟨.table .dotted [(⟨"eof", ⟨20, 17⟩⟩, ⟨.boolean true, some ⟨14, 10⟩⟩)], none⟩),
        (⟨"prompt", ⟨8, 2⟩⟩, ⟨.table .header [], some ⟨9, 1⟩⟩)] := by
    cbv
  refine (((parse_documented _).1 _ hread ?_).2.1 _).mpr ⟨?_, ?_, ?_, ?_, ?_, rfl⟩
  · simp [SectionsAreTables, Entries.Has, or_imp, forall_and]
  · refine Entries.forall_has_iff.mpr (List.forall_mem_cons.mpr ⟨.output ?_, ?_⟩)
    · exact Entries.forall_has_iff.mpr (List.forall_mem_singleton.mpr (.eof true))
    · exact List.forall_mem_singleton.mpr (.prompt fun _ _ h => absurd h Entries.not_has_nil)
  · exact .default (by simp [GivesKey, Entries.Has])
  · exact .default (by simp [GivesKey, Entries.Has])
  · exact .given (by simp [GivesKey, Entries.Has])
  · exact .default (by simp [GivesKey, Entries.Has])

end Manifest

end LoxTokenizer
