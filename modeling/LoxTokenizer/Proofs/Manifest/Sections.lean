import LoxTokenizer.Manifest.Shape
import LoxTokenizer.Proofs.Results
import LoxTokenizer.Proofs.Toml.Keys

/-!
# The sections of a document

The sections of a document are told by the keys that it has, each with its value, and so without an
order. A section that is a table is read exactly if it has no keys but its own, each with a value of
its kind. What is read has the value of each key that is there and the default of each that is not,
so a section without keys is read as one that is not there.

* `Toml.Entries.Has`: a table has a key with a value. Since no key is there twice, it has one value.
* `Manifest.WellShaped`: a document has only sections and keys that there are.
* `Manifest.Tells`: what is read is what the document has.
* **`Manifest.tells_of_sections?`**, **`Manifest.exists_sections?`**: a document whose sections are
  tables is read exactly if it is well-shaped, and what is read tells of it.
-/

namespace LoxTokenizer

open Toml (Entries Extent Key Located TableOrigin Value)

/-- A table has a key with some value. -/
def Toml.Entries.Has (entries : Entries) (name : String) (v : Value) : Prop :=
  ∃ e ∈ entries, e.1.name = name ∧ e.2.value = v

variable {root entries : Entries} {name title : String} {v v' : Value} {e : Key × Located Value}

namespace Toml.Entries

theorem not_has_nil : ¬ Has [] name v := by
  rintro ⟨e, he, -⟩
  cases he

theorem has_concat_iff :
    Has (entries ++ [e]) name v ↔ entries.Has name v ∨ e.1.name = name ∧ e.2.value = v := by
  simp [Has, or_and_right, exists_or]

/-- No key is there twice, so it has one value. -/
theorem Has.unique (hdistinct : entries.Distinct) (h : entries.Has name v)
    (h' : entries.Has name v') : v = v' := by
  obtain ⟨e, he, hname, rfl⟩ := h
  obtain ⟨e', he', hname', rfl⟩ := h'
  rw [List.inj_on_of_nodup_map hdistinct.keys he he' (hname.trans hname'.symm)]

theorem forall_has_iff {P : String → Value → Prop} :
    (∀ name v, entries.Has name v → P name v) ↔ ∀ e ∈ entries, P e.1.name e.2.value := by
  constructor
  · exact fun h e he => h _ _ ⟨e, he, rfl, rfl⟩
  · rintro h _ _ ⟨e, he, rfl, rfl⟩
    exact h e he

/-- An entry of another key gives no value. -/
theorem not_has_concat (h : ∀ v, ¬ entries.Has name v) (hname : e.1.name ≠ name) (v : Value) :
    ¬ Has (entries ++ [e]) name v := by
  rw [has_concat_iff]
  rintro (hv | ⟨heq, -⟩)
  · exact h v hv
  · exact hname heq

end Toml.Entries

namespace Manifest

/-! ## What may be in a manifest -/

/-- The keys of the output section, with values of their kinds. -/
inductive OutputKey : String → Value → Prop where
  | format (name : String) : OutputKey "format" (.string name)
  | trivia (b : Bool) : OutputKey "trivia" (.boolean b)
  | eof (b : Bool) : OutputKey "eof" (.boolean b)

/-- The key of the prompt section, with a value of its kind. -/
inductive PromptKey : String → Value → Prop where
  | prompt (text : String) : PromptKey "prompt" (.string text)

/-- The sections of a manifest, each with no keys but its own. -/
inductive Section : String → Value → Prop where
  | output {origin : TableOrigin} {entries : Entries}
    (keys : ∀ name v, entries.Has name v → OutputKey name v) :
    Section "output" (.table origin entries)
  | prompt {origin : TableOrigin} {entries : Entries}
    (keys : ∀ name v, entries.Has name v → PromptKey name v) :
    Section "prompt" (.table origin entries)

/-- **The shape of a manifest**: a document that has nothing but sections. -/
def WellShaped (root : Entries) : Prop :=
  ∀ title v, root.Has title v → Section title v

/-- What stands for a section is a table. -/
def SectionsAreTables (root : Entries) : Prop :=
  ∀ title v, title = "output" ∨ title = "prompt" → root.Has title v →
    ∃ origin entries, v = .table origin entries

/-! ## What holds for a key -/

/-- What holds for a key: the value given for it, or the default if none is given. -/
inductive Settled {α : Type} (given : Value → Prop) (kind : α → Value) (default : α) :
  α → Prop where
  | given {x : α} (h : given (kind x)) : Settled given kind default x
  | default (h : ∀ v, ¬ given v) : Settled given kind default default

section Settled

variable {α : Type} {given : Value → Prop} {kind : α → Value} {default x x' : α}

theorem Settled.unique (hgiven : ∀ v v', given v → given v' → v = v') (hkind : kind.Injective)
    (h : Settled given kind default x) (h' : Settled given kind default x') : x = x' := by
  cases h with
  | given h =>
    cases h' with
    | given h' => exact hkind (hgiven _ _ h h')
    | default h' => exact absurd h (h' _)
  | default h =>
    cases h' with
    | given h' => exact absurd h' (h _)
    | default => rfl

theorem Settled.congr {given' : Value → Prop} (hgiven : ∀ v, given v ↔ given' v) :
    Settled given kind default x ↔ Settled given' kind default x := by
  rw [show given = given' from funext fun v => propext (hgiven v)]

/-- An entry settles what it is the key of. -/
theorem Settled.of_entry (hname : e.1.name = name) (hvalue : e.2.value = kind x) :
    Settled (Entries.Has (entries ++ [e]) name) kind default x :=
  .given (Entries.has_concat_iff.mpr (.inr ⟨hname, hvalue⟩))

/-- An entry of another key leaves what holds as it is. -/
theorem Settled.concat (h : Settled (entries.Has name) kind default x) (hname : e.1.name ≠ name) :
    Settled (Entries.Has (entries ++ [e]) name) kind default x := by
  refine (congr fun v => ?_).mp h
  rw [Entries.has_concat_iff]
  exact ⟨.inl, fun h => h.resolve_right fun h => hname h.1⟩

end Settled

/-! ## Values of a kind -/

variable {place : Extent} {located : Located Value}

theorem asText_eq_ok_iff {x : String} :
    asText place located = .ok x ↔ located.value = .string x := by
  unfold asText wrongType
  split
  · rename_i text htext
    simp [htext]
  · rename_i hother
    exact iff_of_false nofun (hother x)

theorem asBoolean_eq_ok_iff {x : Bool} :
    asBoolean place located = .ok x ↔ located.value = .boolean x := by
  unfold asBoolean wrongType
  split
  · rename_i b hb
    simp [hb]
  · rename_i hother
    exact iff_of_false nofun (hother x)

/-! ## Reading entries one after the other -/

/-- Reading items one after the other, where each step reads only what is good and keeps what is
told of the items before it. If there is an end, all are good, and what is read tells of all. -/
theorem forall_and_of_foldlM {σ ε α : Type} {step : σ → α → Except ε σ} {Good : α → Prop}
    {Tells : List α → σ → Prop} {l : List α} {seen : List α} {s s' : σ}
    (hstep : ∀ e ∈ l, ∀ seen s s', step s e = .ok s' → Tells seen s →
      Good e ∧ Tells (seen ++ [e]) s')
    (h : l.foldlM step s = .ok s') (hs : Tells seen s) :
    (∀ e ∈ l, Good e) ∧ Tells (seen ++ l) s' := by
  induction l generalizing s seen with
  | nil =>
    cases h
    rw [List.append_nil]
    exact ⟨nofun, hs⟩
  | cons e l ih =>
    rw [List.foldlM_cons] at h
    rw [List.forall_mem_cons] at hstep
    cases hfirst : step s e with
    | error fault =>
      rw [hfirst] at h
      cases h
    | ok between =>
      rw [hfirst] at h
      obtain ⟨hgood, htells⟩ := hstep.1 seen s between hfirst hs
      obtain ⟨hrest, hall⟩ := ih hstep.2 h htells
      rw [List.append_assoc, List.singleton_append] at hall
      exact ⟨List.forall_mem_cons.mpr ⟨hgood, hrest⟩, hall⟩

theorem exists_foldlM_eq_ok {σ ε α : Type} {step : σ → α → Except ε σ} {l : List α}
    (hstep : ∀ e ∈ l, ∀ s, ∃ s', step s e = .ok s') (s : σ) : ∃ s', l.foldlM step s = .ok s' := by
  induction l generalizing s with
  | nil => exact ⟨s, rfl⟩
  | cons e l ih =>
    rw [List.forall_mem_cons] at hstep
    obtain ⟨between, hfirst⟩ := hstep.1 s
    obtain ⟨s', hrest⟩ := ih hstep.2 between
    refine ⟨s', ?_⟩
    rw [List.foldlM_cons, hfirst]
    exact hrest

/-! ## The output section -/

/-- What an output section tells of its entries. -/
structure OutputTells (entries : Entries) (s : OutputSection) : Prop where
  named : ∀ name, s.format = some name → entries.Has "format" (.string name)
  unnamed : s.format = none → ∀ v, ¬ entries.Has "format" v
  trivia : Settled (entries.Has "trivia") .boolean true s.trivia
  eof : Settled (entries.Has "eof") .boolean false s.eof

theorem outputTells_default : OutputTells [] .default where
  named _ h := by cases h
  unnamed _ _ := Entries.not_has_nil
  trivia := .default fun _ => Entries.not_has_nil
  eof := .default fun _ => Entries.not_has_nil

/-- An entry that is read is one that the section has, and sets what it is the key of. -/
theorem outputShape_entry_cases {s s' : OutputSection} (h : outputShape.entry s e = .ok s') :
    (∃ n, e.1.name = "format" ∧ e.2.value = .string n ∧ s' = { s with format := some n }) ∨
    (∃ b, e.1.name = "trivia" ∧ e.2.value = .boolean b ∧ s' = { s with trivia := b }) ∨
    (∃ b, e.1.name = "eof" ∧ e.2.value = .boolean b ∧ s' = { s with eof := b }) := by
  unfold SectionShape.entry outputShape at h
  dsimp only at h
  split at h
  · rename_i set hset
    split at hset
    · rename_i hname
      cases hset
      obtain ⟨n, hn, rfl⟩ := exists_of_map_eq_ok h
      exact .inl ⟨n, hname, asText_eq_ok_iff.mp hn, rfl⟩
    · rename_i hname
      cases hset
      obtain ⟨b, hb, rfl⟩ := exists_of_map_eq_ok h
      exact .inr (.inl ⟨b, hname, asBoolean_eq_ok_iff.mp hb, rfl⟩)
    · rename_i hname
      cases hset
      obtain ⟨b, hb, rfl⟩ := exists_of_map_eq_ok h
      exact .inr (.inr ⟨b, hname, asBoolean_eq_ok_iff.mp hb, rfl⟩)
    · cases hset
  · cases h

theorem exists_outputShape_entry (h : OutputKey e.1.name e.2.value) (s : OutputSection) :
    ∃ s', outputShape.entry s e = .ok s' := by
  obtain ⟨⟨name, extent⟩, ⟨v, stretch⟩⟩ := e
  cases h <;> exact ⟨_, rfl⟩

theorem outputTells_concat {s s' : OutputSection} (h : outputShape.entry s e = .ok s')
    (hs : OutputTells entries s) :
    OutputKey e.1.name e.2.value ∧ OutputTells (entries ++ [e]) s' := by
  obtain ⟨n, hname, hvalue, rfl⟩ | ⟨b, hname, hvalue, rfl⟩ | ⟨b, hname, hvalue, rfl⟩ :=
    outputShape_entry_cases h
  · rw [hname, hvalue]
    refine ⟨.format n, ?_, nofun, hs.trivia.concat ?_, hs.eof.concat ?_⟩
    · intro n' hn
      rw [← Option.some.inj hn]
      exact Entries.has_concat_iff.mpr (.inr ⟨hname, hvalue⟩)
    · simp [hname]
    · simp [hname]
  · rw [hname, hvalue]
    refine ⟨.trivia b, ?_, ?_, .of_entry hname hvalue, hs.eof.concat ?_⟩
    · exact fun n hn => Entries.has_concat_iff.mpr (.inl (hs.named n hn))
    · exact fun hnone => Entries.not_has_concat (hs.unnamed hnone) (by simp [hname])
    · simp [hname]
  · rw [hname, hvalue]
    refine ⟨.eof b, ?_, ?_, hs.trivia.concat ?_, .of_entry hname hvalue⟩
    · exact fun n hn => Entries.has_concat_iff.mpr (.inl (hs.named n hn))
    · exact fun hnone => Entries.not_has_concat (hs.unnamed hnone) (by simp [hname])
    · simp [hname]

/-! ## The prompt section -/

/-- What a prompt section tells of its entries. -/
def PromptTells (entries : Entries) (s : PromptSection) : Prop :=
  Settled (entries.Has "prompt") .string "> " s.prompt

theorem promptTells_default : PromptTells [] .default :=
  .default fun _ => Entries.not_has_nil

theorem promptShape_entry_cases {s s' : PromptSection} (h : promptShape.entry s e = .ok s') :
    ∃ text, e.1.name = "prompt" ∧ e.2.value = .string text ∧ s' = ⟨text⟩ := by
  unfold SectionShape.entry promptShape at h
  dsimp only at h
  split at h
  · rename_i set hset
    split at hset
    · rename_i hname
      cases hset
      obtain ⟨text, htext, rfl⟩ := exists_of_map_eq_ok h
      exact ⟨text, hname, asText_eq_ok_iff.mp htext, rfl⟩
    · cases hset
  · cases h

theorem exists_promptShape_entry (h : PromptKey e.1.name e.2.value) (s : PromptSection) :
    ∃ s', promptShape.entry s e = .ok s' := by
  obtain ⟨⟨name, extent⟩, ⟨v, stretch⟩⟩ := e
  cases h
  exact ⟨_, rfl⟩

theorem promptTells_concat {s s' : PromptSection} (h : promptShape.entry s e = .ok s') :
    PromptKey e.1.name e.2.value ∧ PromptTells (entries ++ [e]) s' := by
  obtain ⟨text, hname, hvalue, rfl⟩ := promptShape_entry_cases h
  rw [hname, hvalue]
  exact ⟨.prompt text, .of_entry hname hvalue⟩

/-! ## All sections -/

/-- The entries of a section. A section that is not there has none. -/
inductive EntriesOf (root : Entries) (title : String) : Entries → Prop where
  | present {origin : TableOrigin} {entries : Entries}
    (h : root.Has title (.table origin entries)) : EntriesOf root title entries
  | absent (h : ∀ v, ¬ root.Has title v) : EntriesOf root title []

/-- What the sections of a document tell of it. -/
structure Tells (root : Entries) (s : Sections) : Prop where
  output : ∃ entries, EntriesOf root "output" entries ∧ OutputTells entries s.output
  prompt : ∃ entries, EntriesOf root "prompt" entries ∧ PromptTells entries s.prompt

theorem tells_default : Tells [] .default where
  output := ⟨[], .absent fun _ => Entries.not_has_nil, outputTells_default⟩
  prompt := ⟨[], .absent fun _ => Entries.not_has_nil, promptTells_default⟩

theorem EntriesOf.of_entry {origin : TableOrigin} (hname : e.1.name = title)
    (hvalue : e.2.value = .table origin entries) : EntriesOf (root ++ [e]) title entries :=
  .present (Entries.has_concat_iff.mpr (.inr ⟨hname, hvalue⟩))

theorem EntriesOf.concat (h : EntriesOf root title entries) (hname : e.1.name ≠ title) :
    EntriesOf (root ++ [e]) title entries := by
  cases h with
  | present h => exact .present (Entries.has_concat_iff.mpr (.inl h))
  | absent h => exact .absent (Entries.not_has_concat h hname)

theorem read_table {σ : Type} {shape : SectionShape σ} {default : σ} {origin : TableOrigin}
    (h : located.value = .table origin entries) :
    shape.read default place located = entries.foldlM shape.entry default := by
  unfold SectionShape.read
  rw [h]

/-- A section that is a table is read exactly if it has no keys but its own, and what is read tells
of them. -/
theorem tells_of_sectionEntry {s s' : Sections} (hroot : SectionsAreTables root) (he : e ∈ root)
    {seen : Entries} (h : sectionEntry s e = .ok s') (hs : Tells seen s) :
    Section e.1.name e.2.value ∧ Tells (seen ++ [e]) s' := by
  unfold sectionEntry at h
  split at h
  · rename_i hname
    obtain ⟨origin, entries, hvalue⟩ := hroot _ _ (.inl hname) ⟨e, he, rfl, rfl⟩
    obtain ⟨out, hout, rfl⟩ := exists_of_map_eq_ok h
    rw [read_table hvalue] at hout
    obtain ⟨hkeys, htells⟩ := forall_and_of_foldlM
      (fun _ _ _ _ _ => outputTells_concat) hout outputTells_default
    obtain ⟨prompt, hprompt, hprompt'⟩ := hs.prompt
    rw [hname, hvalue]
    refine ⟨.output (Entries.forall_has_iff.mpr hkeys), ⟨entries, .of_entry hname hvalue, htells⟩,
      ⟨prompt, hprompt.concat ?_, hprompt'⟩⟩
    simp [hname]
  · rename_i hname
    obtain ⟨origin, entries, hvalue⟩ := hroot _ _ (.inr hname) ⟨e, he, rfl, rfl⟩
    obtain ⟨out, hout, rfl⟩ := exists_of_map_eq_ok h
    rw [read_table hvalue] at hout
    obtain ⟨hkeys, htells⟩ := forall_and_of_foldlM
      (fun _ _ _ _ _ h _ => promptTells_concat h) hout promptTells_default
    obtain ⟨output, houtput, houtput'⟩ := hs.output
    rw [hname, hvalue]
    refine ⟨.prompt (Entries.forall_has_iff.mpr hkeys), ⟨output, houtput.concat ?_, houtput'⟩,
      ⟨entries, .of_entry hname hvalue, htells⟩⟩
    simp [hname]
  · cases h

theorem exists_sectionEntry (h : Section e.1.name e.2.value) (s : Sections) :
    ∃ s', sectionEntry s e = .ok s' := by
  obtain ⟨⟨title, place⟩, ⟨v, stretch⟩⟩ := e
  cases h with
  | output keys =>
    obtain ⟨out, hout⟩ := exists_foldlM_eq_ok
      (fun e he => exists_outputShape_entry (Entries.forall_has_iff.mp keys e he)) .default
    exact ⟨⟨out, s.prompt⟩, congrArg (Except.map fun out => (⟨out, s.prompt⟩ : Sections)) hout⟩
  | prompt keys =>
    obtain ⟨out, hout⟩ := exists_foldlM_eq_ok
      (fun e he => exists_promptShape_entry (Entries.forall_has_iff.mp keys e he)) .default
    exact ⟨⟨s.output, out⟩, congrArg (Except.map fun out => (⟨s.output, out⟩ : Sections)) hout⟩

theorem tells_of_sections? {s : Sections} (hroot : SectionsAreTables root)
    (h : sections? root = .ok s) : WellShaped root ∧ Tells root s := by
  obtain ⟨hsections, htells⟩ := forall_and_of_foldlM
    (fun _ he _ _ _ => tells_of_sectionEntry hroot he) h tells_default
  exact ⟨Entries.forall_has_iff.mpr hsections, htells⟩

theorem exists_sections? (h : WellShaped root) : ∃ s, sections? root = .ok s :=
  exists_foldlM_eq_ok (fun e he => exists_sectionEntry (Entries.forall_has_iff.mp h e he)) .default

end Manifest

end LoxTokenizer
